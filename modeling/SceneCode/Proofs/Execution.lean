import SceneCode.Proofs.Names
import SceneCode.Proofs.Nested
import SceneCode.Proofs.Simplify
import SceneCode.Swift.Renderer

/-!
# Running generated code

Statements are run in order, in an environment from the texts of names to values
(`Environment`). A declaration binds a name to a value, a step extends the path that a name is
bound to, and a call is made on the context with the values that its names are bound to. A name
that is not bound, or bound to a value of another kind, stops the run. What comes out are the
calls (`Action`), with values for arguments (`Statement.runAll`).

The closure of a mask runs in the environment in which it is declared, with a context of its own;
what it binds is gone when it returns. The callback of a pattern is run later and elsewhere: it
finds nothing but its context. For both, the calls made inside are part of the value.

The calls that a command stands for are stated apart from all names (`actions`): those of a mask
or a pattern are the calls of its stream, after both simplifications.
-/

namespace SceneCode.Swift

/-! ## Calls and values -/

/-- A call on the drawing context, with values for arguments. A mask is given by its size, a
    pattern by its tile, and both by the calls that draw them. -/
inductive Action
  | push (bracket : Bracket)
  | pop (bracket : Bracket)
  | transform (step : Transform Literal (Affine Literal))
  | setFillColor (color : Color)
  | setFillColorSpace (space : ColorSpace)
  | setFillPattern (tile : Rect Literal) (contents : List Action) (alpha : Literal)
  | setStrokeColor (color : Color)
  | setLineWidth (width : Literal)
  | setLineCap (cap : Keyword)
  | setLineJoin (join : Keyword)
  | setMiterLimit (limit : Literal)
  | setAlpha (alpha : Literal)
  | setBlendMode (mode : Keyword)
  | addPath (path : Path)
  | clip (rule : Keyword)
  | clipToMask (frame : Rect Literal) (size : Size Literal) (contents : List Action)
  | strokePath
  | fillPath (rule : Keyword)
  | drawImage (image : Image) (frame : Rect Literal)
  | drawLinearGradient (gradient : Gradient) (start stop : Point Literal)
  | drawRadialGradient (gradient : Gradient) (startCenter : Point Literal)
      (startRadius : Literal) (endCenter : Point Literal) (endRadius : Literal)

/-- What a name can be bound to. -/
inductive Value
  | context
  | space (space : ColorSpace)
  | number (number : Literal)
  | numbers (numbers : List Literal)
  | color (color : Color)
  | path (path : Path)
  | matrix (matrix : Affine Literal)
  | gradient (gradient : Gradient)
  | image (image : Image)
  | mask (size : Size Literal) (contents : List Action)
  /-- A function that draws, or the callbacks made of one. -/
  | callback (contents : List Action)
  | pattern (tile : Rect Literal) (contents : List Action)

/-! ## Environments -/

/-- What the names in a scope are bound to. Names are told apart by their texts only. -/
def Environment := String → Option Value

namespace Environment

def lookup (e : Environment) (n : Name) : Option Value := e n.text

def bind (e : Environment) (n : Name) (v : Value) : Environment := fun text =>
  if text = n.text then some v else e text

/-- The environment in which a function that draws is run: it has its context only. -/
def start : Environment := bind (fun _ => none) .context .context

end Environment

/-! ## Running statements -/

/-- The value of a colour's expression, which refers to the space of the colour. -/
def Color.run (e : Environment) (c : Color) : Option Color := do
  let .space s ← e.lookup (.space c.space) | none
  some ⟨s, c.components⟩

/-- The call that is made, if its names are bound. -/
def Call.run (e : Environment) : Call → Option Action
  | .push bracket => some (.push bracket)
  | .pop bracket => some (.pop bracket)
  | .transform (.matrix k) => do
    let .matrix m ← e.lookup (.numbered .transform k) | none
    some (.transform (.matrix m))
  | .transform (.translate dx dy) => some (.transform (.translate dx dy))
  | .transform (.scale sx sy) => some (.transform (.scale sx sy))
  | .transform (.rotate angle) => some (.transform (.rotate angle))
  | .setFillColor k => do
    let .color c ← e.lookup (.numbered .color k) | none
    some (.setFillColor c)
  | .setFillColorSpace s => do
    let .space s ← e.lookup (.space s) | none
    some (.setFillColorSpace s)
  | .setFillPattern k => do
    let .pattern tile contents ← e.lookup (.numbered .pattern k) | none
    let .number alpha ← e.lookup .patternAlpha | none
    some (.setFillPattern tile contents alpha)
  | .setStrokeColor k => do
    let .color c ← e.lookup (.numbered .color k) | none
    some (.setStrokeColor c)
  | .setLineWidth width => some (.setLineWidth width)
  | .setLineCap cap => some (.setLineCap cap)
  | .setLineJoin join => some (.setLineJoin join)
  | .setMiterLimit limit => some (.setMiterLimit limit)
  | .setAlpha alpha => some (.setAlpha alpha)
  | .setBlendMode mode => some (.setBlendMode mode)
  | .addPath k => do
    let .path p ← e.lookup (.numbered .path k) | none
    some (.addPath p)
  | .clip rule => some (.clip rule)
  | .clipToMask frame k => do
    let .mask size contents ← e.lookup (.numbered .mask k) | none
    some (.clipToMask frame size contents)
  | .strokePath => some .strokePath
  | .fillPath rule => some (.fillPath rule)
  | .drawImage k frame => do
    let .image i ← e.lookup (.numbered .image k) | none
    some (.drawImage i frame)
  | .drawLinearGradient k start stop => do
    let .gradient g ← e.lookup (.numbered .gradient k) | none
    some (.drawLinearGradient g start stop)
  | .drawRadialGradient k startCenter startRadius endCenter endRadius => do
    let .gradient g ← e.lookup (.numbered .gradient k) | none
    some (.drawRadialGradient g startCenter startRadius endCenter endRadius)

/-- The calls that turn the context of a mask, before anything is drawn on it. -/
def turningActions (size : Size Literal) : List Action :=
  [.transform (.translate ⟨0⟩ size.height), .transform (.scale ⟨1⟩ ⟨-1⟩)]

mutual

/-- Runs a statement: the environment after it, and the calls it makes. -/
def Statement.run : Statement → Environment → Option (Environment × List Action)
  | .space s, e => some (e.bind (.space s) (.space s), [])
  | .patternAlpha, e => some (e.bind .patternAlpha (.number ⟨1⟩), [])
  | .color k c, e => do
    let c ← c.run e
    some (e.bind (.numbered .color k) (.color c), [])
  | .path k, e => some (e.bind (.numbered .path k) (.path ⟨[]⟩), [])
  | .extendPath k step, e => do
    let .path p ← e.lookup (.numbered .path k) | none
    some (e.bind (.numbered .path k) (.path ⟨p.steps ++ [step]⟩), [])
  | .transform k m, e => some (e.bind (.numbered .transform k) (.matrix m), [])
  | .locations k values, e => some (e.bind (.numbered .locations k) (.numbers values), [])
  | .gradient k colors, e => do
    let .space .rgb ← e.lookup (.space .rgb) | none
    let colors ← colors.mapM (Color.run e)
    let .numbers offsets ← e.lookup (.numbered .locations k) | none
    some (e.bind (.numbered .gradient k) (.gradient ⟨colors, offsets⟩), [])
  | .image k picture, e => some (e.bind (.numbered .image k) (.image picture), [])
  | .mask k size body, e => do
    let (_, contents) ← Statement.runAll body (e.bind .context .context)
    some (e.bind (.numbered .mask k) (.mask size (turningActions size ++ contents)), [])
  | .patternDraw k body, e => do
    let (_, contents) ← Statement.runAll body .start
    some (e.bind (.numbered .patternDraw k) (.callback contents), [])
  | .patternCallback k, e => do
    let .callback contents ← e.lookup (.numbered .patternDraw k) | none
    some (e.bind (.numbered .patternCallback k) (.callback contents), [])
  | .pattern k tile, e => do
    let .callback contents ← e.lookup (.numbered .patternCallback k) | none
    some (e.bind (.numbered .pattern k) (.pattern tile contents), [])
  | .call c, e => do
    let .context ← e.lookup .context | none
    let action ← c.run e
    some (e, [action])
termination_by structural s => s

/-- Runs some statements, one after the other. -/
def Statement.runAll : List Statement → Environment → Option (Environment × List Action)
  | [], e => some (e, [])
  | s :: rest, e => do
    let (e, first) ← s.run e
    let (e, others) ← Statement.runAll rest e
    some (e, first ++ others)
termination_by structural ss => ss

end

/-- Runs the preamble, and the body after it: the calls made by each of them. -/
def Output.run (o : Output) : Option (List Action × List Action) := do
  let (e, first) ← Statement.runAll o.preamble .start
  let (_, others) ← Statement.runAll o.body e
  some (first, others)

/-! ## The calls of commands -/

/-- The calls that a command stands for. -/
def actions : DrawingCommand resources → List Action
  | .push bracket => [.push bracket]
  | .pop bracket => [.pop bracket]
  | .transform step => [.transform step]
  | .set (.fill color) => [.setFillColor color]
  | .set (.fillPattern (.of tile contents)) =>
    [.setFillColorSpace .pattern,
      .setFillPattern tile
        ((Simplifications.all.apply contents).attach.flatMap fun ⟨c, _⟩ => actions c) ⟨1⟩]
  | .set (.stroke color) => [.setStrokeColor color]
  | .set (.lineWidth width) => [.setLineWidth width]
  | .set (.lineCap cap) => [.setLineCap cap]
  | .set (.lineJoin join) => [.setLineJoin join]
  | .set (.miterLimit limit) => [.setMiterLimit limit]
  | .set (.clip path rule) => [.addPath path, .clip rule]
  | .set (.clipMask (.of contents size) frame) =>
    [.clipToMask frame size (turningActions size ++
      (Simplifications.all.apply contents).attach.flatMap fun ⟨c, _⟩ => actions c)]
  | .set (.alpha value) => [.setAlpha value]
  | .set (.blendMode mode) => [.setBlendMode mode]
  | .mark (.stroke path) => [.addPath path, .strokePath]
  | .mark (.fill path rule) => [.addPath path, .fillPath rule]
  | .mark (.image picture frame) => [.drawImage picture frame]
  | .mark (.linearGradient gradient start stop) => [.drawLinearGradient gradient start stop]
  | .mark (.radialGradient gradient startCenter startRadius endCenter endRadius) =>
    [.drawRadialGradient gradient startCenter startRadius endCenter endRadius]
termination_by c => sizeOf c
decreasing_by
  all_goals
    exact DrawingCommand.sizeOf_lt_of_mem_inner ((Simplifications.apply_sublist _ _).mem ‹_›)

/-- The calls that a stream stands for. -/
def allActions (commands : Drawing resources) : List Action := commands.flatMap actions

/-- A pattern is set with the calls of its simplified stream. -/
theorem actions_fillPattern (tile : Rect Literal) (contents : Drawing resources) :
    actions (.set (.fillPattern (.of tile contents))) =
      [.setFillColorSpace .pattern,
        .setFillPattern tile (allActions (Simplifications.all.apply contents)) ⟨1⟩] := by
  rw [actions, allActions]
  simp

/-- A mask is drawn in a context of its own, which is turned first. -/
theorem actions_clipMask (contents : Drawing resources) (size : Size Literal)
    (frame : Rect Literal) :
    actions (.set (.clipMask (.of contents size) frame)) =
      [.clipToMask frame size
        (turningActions size ++ allActions (Simplifications.all.apply contents))] := by
  rw [actions, allActions]
  simp

/-! ## Bindings -/

namespace Environment

/-- A name that has just been bound has its value. -/
theorem lookup_bind_self (e : Environment) (n : Name) (v : Value) :
    (e.bind n v).lookup n = some v :=
  if_pos rfl

/-- Since names have texts of their own, binding one of them does not touch the others. -/
theorem lookup_bind_of_ne (e : Environment) {m n : Name} (v : Value) (h : n ≠ m) :
    (e.bind m v).lookup n = e.lookup n :=
  if_neg fun ht => h (Name.text_injective ht)

end Environment

namespace Statement

/-- Statements run if the first one does, and the others do from there on. -/
theorem runAll_cons_eq_some_iff {s : Statement} {rest : List Statement} {e final : Environment}
    {all : List Action} :
    runAll (s :: rest) e = some (final, all) ↔
      ∃ next first others, s.run e = some (next, first) ∧
        runAll rest next = some (final, others) ∧ first ++ others = all := by
  simp only [runAll, Option.bind_eq_bind, Option.bind_eq_some_iff, Prod.exists, Option.some.injEq,
    Prod.mk.injEq]
  constructor
  · rintro ⟨next, first, hs, _, others, hrest, rfl, rfl⟩
    exact ⟨next, first, others, hs, hrest, rfl⟩
  · rintro ⟨next, first, others, hs, hrest, rfl⟩
    exact ⟨next, first, hs, final, others, hrest, rfl, rfl⟩

theorem runAll_cons {s : Statement} {rest : List Statement} {e next final : Environment}
    {first others : List Action} (h : s.run e = some (next, first))
    (h' : runAll rest next = some (final, others)) :
    runAll (s :: rest) e = some (final, first ++ others) :=
  runAll_cons_eq_some_iff.2 ⟨next, first, others, h, h', rfl⟩

theorem runAll_single {s : Statement} {e final : Environment} {all : List Action}
    (h : s.run e = some (final, all)) : runAll [s] e = some (final, all) :=
  runAll_cons_eq_some_iff.2 ⟨final, all, [], h, rfl, List.append_nil all⟩

/-- Statements run one after the other, and their calls come in that order. -/
theorem runAll_append {ss ts : List Statement} {e middle final : Environment}
    {first others : List Action} (h : runAll ss e = some (middle, first))
    (h' : runAll ts middle = some (final, others)) :
    runAll (ss ++ ts) e = some (final, first ++ others) := by
  induction ss generalizing e first with
  | nil =>
    obtain ⟨rfl, rfl⟩ : e = middle ∧ [] = first := by simpa [runAll] using h
    exact h'
  | cons s ss ih =>
    obtain ⟨next, now, later, hs, hss, rfl⟩ := runAll_cons_eq_some_iff.1 h
    rw [List.append_assoc]
    exact runAll_cons hs (ih hss)

end Statement

end SceneCode.Swift
