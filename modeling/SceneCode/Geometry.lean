import SceneCode.Number.Binary

/-!
# Geometry

Points, sizes, rectangles and affine maps, over any type of coordinates, and the steps by which
a coordinate system is transformed. The smallest rectangle around some points (`Rect.around?`)
is computed in single precision.
-/

namespace SceneCode

structure Point (α : Type) where
  x : α
  y : α
  deriving DecidableEq

structure Size (α : Type) where
  width : α
  height : α
  deriving DecidableEq

/-- A rectangle, by the corner at which both coordinates are least. -/
structure Rect (α : Type) where
  origin : Point α
  size : Size α
  deriving DecidableEq

/-- The map `(x, y) ↦ (a * x + c * y + tx, b * x + d * y + ty)`. -/
structure Affine (α : Type) where
  a : α
  b : α
  c : α
  d : α
  tx : α
  ty : α
  deriving DecidableEq

/-- A step of transforming the coordinate system. -/
inductive Transform (Scalar Matrix : Type)
  | matrix (matrix : Matrix)
  | translate (dx dy : Scalar)
  | scale (sx sy : Scalar)
  | rotate (angle : Scalar)
  deriving DecidableEq

variable {α β : Type}

def Point.map (g : α → β) (p : Point α) : Point β := ⟨g p.x, g p.y⟩

def Size.map (g : α → β) (s : Size α) : Size β := ⟨g s.width, g s.height⟩

def Rect.map (g : α → β) (r : Rect α) : Rect β := ⟨r.origin.map g, r.size.map g⟩

def Affine.map (g : α → β) (m : Affine α) : Affine β :=
  ⟨g m.a, g m.b, g m.c, g m.d, g m.tx, g m.ty⟩

/-! ## Comparison by a relation on coordinates -/

def Point.agree (eq : α → α → Bool) (p q : Point α) : Bool := eq p.x q.x && eq p.y q.y

def Size.agree (eq : α → α → Bool) (s t : Size α) : Bool :=
  eq s.width t.width && eq s.height t.height

def Rect.agree (eq : α → α → Bool) (r s : Rect α) : Bool :=
  r.origin.agree eq s.origin && r.size.agree eq s.size

def Affine.agree (eq : α → α → Bool) (m n : Affine α) : Bool :=
  eq m.a n.a && eq m.b n.b && eq m.c n.c && eq m.d n.d && eq m.tx n.tx && eq m.ty n.ty

/-! ## Bounds -/

namespace Point

/-- The corner with the lesser of each coordinate. -/
def lesser (p q : Point Single) : Point Single := ⟨p.x.lesser q.x, p.y.lesser q.y⟩

/-- The corner with the greater of each coordinate. -/
def greater (p q : Point Single) : Point Single := ⟨p.x.greater q.x, p.y.greater q.y⟩

end Point

/-- The smallest rectangle around some points, if there is a point. A coordinate that is NaN is
    left out of account, unless there is no other. -/
def Rect.around? : List (Point Single) → Option (Rect Single)
  | [] => none
  | p :: ps =>
    let low := ps.foldl .lesser p
    let high := ps.foldl .greater p
    some ⟨low, ⟨high.x - low.x, high.y - low.y⟩⟩

end SceneCode
