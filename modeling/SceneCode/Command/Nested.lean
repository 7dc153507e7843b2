import SceneCode.Command.Representation

/-!
# Streams inside streams

A mask is a stream of commands with the size of the surface it is drawn on, and a pattern a
stream of commands with the tile it is drawn in. Their commands may hold masks and patterns
again, to any depth.

Functions on nested streams go through five types at once: masks, patterns, streams, commands
and settings. Each is by structural recursion, so it can be evaluated inside proofs.
-/

namespace SceneCode

mutual

/-- What a drawing on a surface of some size lets through. -/
inductive Mask (R : Resources)
  | of (contents : List (Command R (Mask R) (Pattern R))) (size : R.Size)

/-- A drawing in a tile. -/
inductive Pattern (R : Resources)
  | of (tile : R.Rect) (contents : List (Command R (Mask R) (Pattern R)))

end

/-- A command whose masks and patterns hold streams of such commands. -/
abbrev DrawingCommand (R : Resources) := Command R (Mask R) (Pattern R)

/-- A setting whose mask or pattern holds a stream. -/
abbrev DrawingSetting (R : Resources) := Setting R (Mask R) (Pattern R)

/-- A stream of commands, nested to any depth. -/
abbrev Drawing (R : Resources) := List (DrawingCommand R)

variable {R S : Resources}

namespace Mask

def contents : Mask R → Drawing R
  | of contents _ => contents

def size : Mask R → R.Size
  | of _ size => size

end Mask

namespace Pattern

def tile : Pattern R → R.Rect
  | of tile _ => tile

def contents : Pattern R → Drawing R
  | of _ contents => contents

end Pattern

/-! ## Change of representation -/

mutual

/-- Changes the representation in a mask, and in its stream. -/
def Mask.map (r : Representation R S) : Mask R → Mask S
  | .of contents size => .of (Drawing.map r contents) (r.size size)
termination_by structural m => m

/-- Changes the representation in a pattern, and in its stream. -/
def Pattern.map (r : Representation R S) : Pattern R → Pattern S
  | .of tile contents => .of (r.rect tile) (Drawing.map r contents)
termination_by structural p => p

/-- Changes the representation in every command of a stream. -/
def Drawing.map (r : Representation R S) : List (DrawingCommand R) → Drawing S
  | [] => []
  | c :: rest => DrawingCommand.map r c :: Drawing.map r rest
termination_by structural d => d

/-- Changes the representation in a command, field by field, the streams of masks and patterns
    included. -/
def DrawingCommand.map (r : Representation R S) :
    Command R (Mask R) (Pattern R) → DrawingCommand S
  | .push bracket => .push bracket
  | .pop bracket => .pop bracket
  | .transform step => .transform (step.map r.scalar r.matrix)
  | .set setting => .set (DrawingSetting.map r setting)
  | .mark mark => .mark (mark.map r)
termination_by structural c => c

/-- Changes the representation in a setting. -/
def DrawingSetting.map (r : Representation R S) :
    Setting R (Mask R) (Pattern R) → DrawingSetting S
  | .fill color => .fill (r.color color)
  | .fillPattern pattern => .fillPattern (pattern.map r)
  | .stroke color => .stroke (r.color color)
  | .lineWidth width => .lineWidth (r.scalar width)
  | .lineCap cap => .lineCap (r.lineCap cap)
  | .lineJoin join => .lineJoin (r.lineJoin join)
  | .miterLimit limit => .miterLimit (r.scalar limit)
  | .clip path rule => .clip (r.path path) (r.fillRule rule)
  | .clipMask mask frame => .clipMask (mask.map r) (r.rect frame)
  | .alpha alpha => .alpha (r.scalar alpha)
  | .blendMode mode => .blendMode (r.blendMode mode)
termination_by structural s => s

end

theorem DrawingSetting.map_eq (r : Representation R S) (s : DrawingSetting R) :
    DrawingSetting.map r s = Setting.map r (Mask.map r) (Pattern.map r) s := by
  cases s <;> rfl

theorem DrawingCommand.map_eq (r : Representation R S) (c : DrawingCommand R) :
    DrawingCommand.map r c = Command.map r (Mask.map r) (Pattern.map r) c := by
  cases c with
  | set s => exact congrArg Command.set (DrawingSetting.map_eq r s)
  | _ => rfl

/-- A stream is mapped command by command. -/
theorem Drawing.map_eq (r : Representation R S) (d : Drawing R) :
    Drawing.map r d = List.map (DrawingCommand.map r) d := by
  induction d with
  | nil => rfl
  | cons c rest ih => exact congrArg (DrawingCommand.map r c :: ·) ih

/-! ## Comparison -/

mutual

/-- Compares two masks. -/
def Mask.agree (t : Comparison R) : Mask R → Mask R → Bool
  | .of contents size, .of contents' size' =>
    Drawing.agree t contents contents' && t.size size size'
termination_by structural m => m

/-- Compares two patterns. -/
def Pattern.agree (t : Comparison R) : Pattern R → Pattern R → Bool
  | .of tile contents, .of tile' contents' =>
    t.rect tile tile' && Drawing.agree t contents contents'
termination_by structural p => p

/-- Compares two streams, command by command. -/
def Drawing.agree (t : Comparison R) : List (DrawingCommand R) → Drawing R → Bool
  | [], [] => true
  | c :: rest, d :: rest' => DrawingCommand.agree t c d && Drawing.agree t rest rest'
  | _, _ => false
termination_by structural d => d

/-- Compares two commands. -/
def DrawingCommand.agree (t : Comparison R) :
    Command R (Mask R) (Pattern R) → DrawingCommand R → Bool
  | .push a, .push b => a = b
  | .pop a, .pop b => a = b
  | .transform a, .transform b => a.agree t.scalar t.matrix b
  | .set a, .set b => DrawingSetting.agree t a b
  | .mark a, .mark b => a.agree t b
  | _, _ => false
termination_by structural c => c

/-- Compares two settings. -/
def DrawingSetting.agree (t : Comparison R) :
    Setting R (Mask R) (Pattern R) → DrawingSetting R → Bool
  | .fillPattern p, .fillPattern q => p.agree t q
  | .clipMask m f, .clipMask n g => m.agree t n && t.rect f g
  | a, b => a.agreeLeaf t b
termination_by structural s => s

end

/-! An exact comparison of resources decides the equality of streams. -/

variable {t : Comparison R}

mutual

theorem Mask.agree_iff (ht : t.Exact) : ∀ m n : Mask R, m.agree t n = true ↔ m = n
  | .of contents size, .of contents' size' => by
    simp [Mask.agree, Drawing.agree_iff ht contents contents', ht.size]

theorem Pattern.agree_iff (ht : t.Exact) : ∀ p q : Pattern R, p.agree t q = true ↔ p = q
  | .of tile contents, .of tile' contents' => by
    simp [Pattern.agree, Drawing.agree_iff ht contents contents', ht.rect]

/-- Where resources are compared exactly, only a stream itself agrees with it. -/
theorem Drawing.agree_iff (ht : t.Exact) : ∀ d e : Drawing R, Drawing.agree t d e = true ↔ d = e
  | [], [] => by simp [Drawing.agree]
  | [], _ :: _ => by simp [Drawing.agree]
  | _ :: _, [] => by simp [Drawing.agree]
  | c :: rest, d :: rest' => by
    simp [Drawing.agree, DrawingCommand.agree_iff ht c d,
      Drawing.agree_iff ht rest rest']

/-- Where resources are compared exactly, only a command itself agrees with it, to any depth. -/
theorem DrawingCommand.agree_iff (ht : t.Exact) :
    ∀ c d : DrawingCommand R, DrawingCommand.agree t c d = true ↔ c = d
  | .set a, .set b => by simp [DrawingCommand.agree, DrawingSetting.agree_iff ht a b]
  | .set _, .push _ | .set _, .pop _ | .set _, .transform _ | .set _, .mark _ => by
    simp [DrawingCommand.agree]
  | .push _, d | .pop _, d => by cases d <;> simp [DrawingCommand.agree]
  | .transform _, d => by
    cases d <;> simp [DrawingCommand.agree, Transform.agree_iff ht.scalar ht.matrix]
  | .mark _, d => by cases d <;> simp [DrawingCommand.agree, Mark.agree_iff ht]

theorem DrawingSetting.agree_iff (ht : t.Exact) :
    ∀ a b : DrawingSetting R, DrawingSetting.agree t a b = true ↔ a = b
  | .fillPattern p, b => by
    cases b with
    | fillPattern q => simp [DrawingSetting.agree, Pattern.agree_iff ht p q]
    | _ => simp [DrawingSetting.agree, Setting.agreeLeaf]
  | .clipMask m f, b => by
    cases b with
    | clipMask n g => simp [DrawingSetting.agree, Mask.agree_iff ht m n, ht.rect]
    | _ => simp [DrawingSetting.agree, Setting.agreeLeaf]
  | .fill _, b | .stroke _, b | .lineWidth _, b | .lineCap _, b | .lineJoin _, b
  | .miterLimit _, b | .clip _ _, b | .alpha _, b | .blendMode _, b => by
    cases b <;>
      simp [DrawingSetting.agree, Setting.agreeLeaf, ht.color, ht.scalar, ht.lineCap,
        ht.lineJoin, ht.path, ht.fillRule, ht.blendMode]

end

end SceneCode
