import SceneCode.Command.Basic

/-!
# Changing the representation of resources

A representation of the resources `R` by the resources `S` is a function for each type of
resource. It carries over to everything that is built from resources, up to commands whose masks
and patterns are mapped by given functions (`Command.map`).

A comparison gives a Boolean relation for each type of resource, and likewise carries over. It
is *exact* if the relations decide equality.
-/

namespace SceneCode

/-- A function between each type of resource of two families. -/
structure Representation (R S : Resources) where
  scalar : R.Scalar → S.Scalar
  point : R.Point → S.Point
  size : R.Size → S.Size
  rect : R.Rect → S.Rect
  matrix : R.Matrix → S.Matrix
  color : R.Color → S.Color
  gradient : R.Gradient → S.Gradient
  path : R.Path → S.Path
  image : R.Image → S.Image
  blendMode : R.BlendMode → S.BlendMode
  fillRule : R.FillRule → S.FillRule
  lineCap : R.LineCap → S.LineCap
  lineJoin : R.LineJoin → S.LineJoin

/-- Every resource represents itself. -/
def Representation.identity (R : Resources) : Representation R R where
  scalar := id
  point := id
  size := id
  rect := id
  matrix := id
  color := id
  gradient := id
  path := id
  image := id
  blendMode := id
  fillRule := id
  lineCap := id
  lineJoin := id

/-- A Boolean relation on each type of resource of a family. -/
structure Comparison (R : Resources) where
  scalar : R.Scalar → R.Scalar → Bool
  point : R.Point → R.Point → Bool
  size : R.Size → R.Size → Bool
  rect : R.Rect → R.Rect → Bool
  matrix : R.Matrix → R.Matrix → Bool
  color : R.Color → R.Color → Bool
  gradient : R.Gradient → R.Gradient → Bool
  path : R.Path → R.Path → Bool
  image : R.Image → R.Image → Bool
  blendMode : R.BlendMode → R.BlendMode → Bool
  fillRule : R.FillRule → R.FillRule → Bool
  lineCap : R.LineCap → R.LineCap → Bool
  lineJoin : R.LineJoin → R.LineJoin → Bool

/-- The relations decide equality. -/
structure Comparison.Exact {R : Resources} (t : Comparison R) : Prop where
  scalar : ∀ a b, t.scalar a b = true ↔ a = b
  point : ∀ a b, t.point a b = true ↔ a = b
  size : ∀ a b, t.size a b = true ↔ a = b
  rect : ∀ a b, t.rect a b = true ↔ a = b
  matrix : ∀ a b, t.matrix a b = true ↔ a = b
  color : ∀ a b, t.color a b = true ↔ a = b
  gradient : ∀ a b, t.gradient a b = true ↔ a = b
  path : ∀ a b, t.path a b = true ↔ a = b
  image : ∀ a b, t.image a b = true ↔ a = b
  blendMode : ∀ a b, t.blendMode a b = true ↔ a = b
  fillRule : ∀ a b, t.fillRule a b = true ↔ a = b
  lineCap : ∀ a b, t.lineCap a b = true ↔ a = b
  lineJoin : ∀ a b, t.lineJoin a b = true ↔ a = b

variable {R S : Resources} {M N P Q : Type}

/-! ## Change of representation -/

def Transform.map {A B C D : Type} (scalar : A → B) (matrix : C → D) :
    Transform A C → Transform B D
  | .matrix m => .matrix (matrix m)
  | .translate dx dy => .translate (scalar dx) (scalar dy)
  | .scale sx sy => .scale (scalar sx) (scalar sy)
  | .rotate angle => .rotate (scalar angle)

def Mark.map (r : Representation R S) : Mark R → Mark S
  | .stroke path => .stroke (r.path path)
  | .fill path rule => .fill (r.path path) (r.fillRule rule)
  | .image picture frame => .image (r.image picture) (r.rect frame)
  | .linearGradient gradient start stop =>
    .linearGradient (r.gradient gradient) (r.point start) (r.point stop)
  | .radialGradient gradient startCenter startRadius endCenter endRadius =>
    .radialGradient (r.gradient gradient) (r.point startCenter) (r.scalar startRadius)
      (r.point endCenter) (r.scalar endRadius)

def Setting.map (r : Representation R S) (mask : M → N) (pattern : P → Q) :
    Setting R M P → Setting S N Q
  | .fill color => .fill (r.color color)
  | .fillPattern p => .fillPattern (pattern p)
  | .stroke color => .stroke (r.color color)
  | .lineWidth width => .lineWidth (r.scalar width)
  | .lineCap cap => .lineCap (r.lineCap cap)
  | .lineJoin join => .lineJoin (r.lineJoin join)
  | .miterLimit limit => .miterLimit (r.scalar limit)
  | .clip path rule => .clip (r.path path) (r.fillRule rule)
  | .clipMask m frame => .clipMask (mask m) (r.rect frame)
  | .alpha value => .alpha (r.scalar value)
  | .blendMode mode => .blendMode (r.blendMode mode)

def Command.map (r : Representation R S) (mask : M → N) (pattern : P → Q) :
    Command R M P → Command S N Q
  | .push bracket => .push bracket
  | .pop bracket => .pop bracket
  | .transform step => .transform (step.map r.scalar r.matrix)
  | .set setting => .set (setting.map r mask pattern)
  | .mark m => .mark (m.map r)

/-! ## Comparison -/

def Transform.agree {A B : Type} (scalar : A → A → Bool) (matrix : B → B → Bool) :
    Transform A B → Transform A B → Bool
  | .matrix m, .matrix n => matrix m n
  | .translate a b, .translate c d => scalar a c && scalar b d
  | .scale a b, .scale c d => scalar a c && scalar b d
  | .rotate a, .rotate b => scalar a b
  | _, _ => false

def Mark.agree (t : Comparison R) : Mark R → Mark R → Bool
  | .stroke p, .stroke q => t.path p q
  | .fill p a, .fill q b => t.path p q && t.fillRule a b
  | .image i f, .image j g => t.image i j && t.rect f g
  | .linearGradient g a b, .linearGradient h c d => t.gradient g h && t.point a c && t.point b d
  | .radialGradient g a x b y, .radialGradient h c z d w =>
    t.gradient g h && t.point a c && t.scalar x z && t.point b d && t.scalar y w
  | _, _ => false

/-- Compares settings that hold neither a mask nor a pattern; any other two differ. -/
def Setting.agreeLeaf (t : Comparison R) : Setting R M P → Setting R M P → Bool
  | .fill a, .fill b => t.color a b
  | .stroke a, .stroke b => t.color a b
  | .lineWidth a, .lineWidth b => t.scalar a b
  | .lineCap a, .lineCap b => t.lineCap a b
  | .lineJoin a, .lineJoin b => t.lineJoin a b
  | .miterLimit a, .miterLimit b => t.scalar a b
  | .clip p a, .clip q b => t.path p q && t.fillRule a b
  | .alpha a, .alpha b => t.scalar a b
  | .blendMode a, .blendMode b => t.blendMode a b
  | _, _ => false

theorem Transform.agree_iff {A B : Type} {scalar : A → A → Bool} {matrix : B → B → Bool}
    (hs : ∀ a b, scalar a b = true ↔ a = b) (hm : ∀ a b, matrix a b = true ↔ a = b)
    (x y : Transform A B) : x.agree scalar matrix y = true ↔ x = y := by
  cases x <;> cases y <;> simp [Transform.agree, hs, hm]

/-- Where resources are compared exactly, only a mark itself agrees with it. -/
theorem Mark.agree_iff {t : Comparison R} (ht : t.Exact) (x y : Mark R) :
    x.agree t y = true ↔ x = y := by
  cases x <;> cases y <;>
    simp [Mark.agree, ht.path, ht.fillRule, ht.image, ht.rect, ht.gradient, ht.point, ht.scalar,
      and_assoc]

end SceneCode
