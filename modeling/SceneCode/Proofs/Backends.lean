import SceneCode.Command.Values
import SceneCode.Proofs.Evaluation
import SceneCode.Proofs.Nested
import SceneCode.Proofs.Simplify
import SceneCode.Swift.Resource

/-!
# Lowering to different backends

Lowering takes resources, masks and patterns from the backend and puts them into commands, but it
never looks at them. So what it makes of a scene for one backend cannot differ much from what it
makes of it for another one. This is stated once for all relations between streams that are kept
by the few things that lowering does with streams (`Parametric`): such a relation holds between
the two streams of every node (`Parametric.lower`). The induction is on the parts of a node, which
are its children and the nodes in its mask and in its pattern (`Node.parts_induction`).

Which relation is taken then says what is shown:

* `checkBalance_lower_and_recorded`: whatever the backend, the stream of a node is a saved state
  around a balanced stream, and every stream that the backend is handed for a mask or a pattern,
  at any depth, is balanced (compared are a backend and the one that keeps a record of the streams
  it is handed, `Backend.recording`);
* `lower_nesting`: on backends that keep the streams of masks and patterns, lowering is lowering
  to scene values and then changing the representation (compared are the backend of scene values
  and any other one). Since brackets have no representation, this goes on to hold when the streams
  are simplified (`apply_lower_backend`).
-/

namespace SceneCode

/-! ## The parts of a node -/

/-- The nodes in a clip. -/
def Clip.nodes {Node : Type} : Clip Node → List Node
  | .shape _ _ => []
  | .mask content _ => [content]

/-- The nodes in a paint. -/
def Paint.nodes {Node : Type} : Paint Node → List Node
  | .color _ => []
  | .pattern _ content => content

namespace Node

/-- The nodes of which a node is made: that of its mask, those of its pattern, and its children. -/
def parts (n : Node) : List Node :=
  n.clip.toList.flatMap Clip.nodes ++ n.fill.toList.flatMap (fun fill => fill.paint.nodes) ++
    n.children

/-- The nodes that a node is made of are smaller, so nodes can be taken by recursion on their size.
    -/
theorem sizeOf_lt_of_mem_parts {n part : Node} (h : part ∈ n.parts) : sizeOf part < sizeOf n := by
  obtain ⟨transforms, clip, opacity, blendMode, isolated, fill, stroke, content, children⟩ := n
  rw [Node.mk.sizeOf_spec]
  rcases List.mem_append.1 h with h | hchild
  · rcases List.mem_append.1 h with hmask | hpattern
    · match clip with
      | none | some (.shape _ _) => exact absurd hmask List.not_mem_nil
      | some (.mask content frame) =>
        obtain rfl : part = content := by simpa [Clip.nodes] using hmask
        simp only [Option.some.sizeOf_spec, Clip.mask.sizeOf_spec]
        omega
    · match fill with
      | none | some ⟨.color _, _⟩ => exact absurd hpattern List.not_mem_nil
      | some ⟨.pattern tile content, rule⟩ =>
        have hpart : part ∈ content := by simpa [Paint.nodes] using hpattern
        have : sizeOf part < sizeOf content := List.sizeOf_lt_of_mem hpart
        simp only [Option.some.sizeOf_spec, Fill.mk.sizeOf_spec, Paint.pattern.sizeOf_spec]
        omega
  · have : sizeOf part < sizeOf children := List.sizeOf_lt_of_mem hchild
    omega

/-- What holds of a node if it holds of all its parts, holds of every node. -/
theorem parts_induction {P : Node → Prop} (step : ∀ n : Node, (∀ part ∈ n.parts, P part) → P n)
    (n : Node) : P n :=
  step n fun part _ => parts_induction step part
termination_by sizeOf n
decreasing_by exact sizeOf_lt_of_mem_parts ‹_›

end Node

/-! ## Relations between the streams of two backends -/

section Parametric

variable {R S : Resources} {M P N Q : Type}

/-- The relation holds between the commands that two backends make of the same scene values, and
    is kept when streams are put together as lowering does it. A setting without a mask or a
    pattern in it is one over empty types of masks and patterns. -/
structure Parametric (b : Backend R M P) (b' : Backend S N Q)
    (T : List (Command R M P) → List (Command S N Q) → Prop) : Prop where
  nil : T [] []
  append {s t : List (Command R M P)} {s' t' : List (Command S N Q)} :
    T s s' → T t t' → T (s ++ t) (s' ++ t')
  saved {s : List (Command R M P)} {s' : List (Command S N Q)} :
    T s s' → T (bracketed .state s) (bracketed .state s')
  layered {s : List (Command R M P)} {s' : List (Command S N Q)} :
    T s s' → T (if b.layers then bracketed .layer s else s)
      (if b'.layers then bracketed .layer s' else s')
  transform (step : Transform Single (Affine Single)) :
    T [.transform (step.map b.represent.scalar b.represent.matrix)]
      [.transform (step.map b'.represent.scalar b'.represent.matrix)]
  setting (setting : Setting .scene Empty Empty) :
    T [.set (setting.map b.represent Empty.elim Empty.elim)]
      [.set (setting.map b'.represent Empty.elim Empty.elim)]
  mark (mark : Mark .scene) : T [.mark (mark.map b.represent)] [.mark (mark.map b'.represent)]
  mask {s : List (Command R M P)} {s' : List (Command S N Q)} (frame : Rect Single) :
    T s s' → T [.set (.clipMask (b.mask s frame.size) (b.represent.rect frame))]
      [.set (.clipMask (b'.mask s' frame.size) (b'.represent.rect frame))]
  pattern {s : List (Command R M P)} {s' : List (Command S N Q)} (tile : Rect Single)
      (content : List Node) :
    T s s' → T [.set (.fillPattern (b.pattern tile content s))]
      [.set (.fillPattern (b'.pattern tile content s'))]

theorem lowerAll_eq_flatMap (b : Backend R M P) (ns : List Node) :
    lowerAll b ns = ns.flatMap (Node.lower b) := by
  induction ns with
  | nil => rfl
  | cons n rest ih => rw [lowerAll, ih, List.flatMap_cons]

/-- The marks of some content are those over scene values, represented by the backend. -/
theorem Backend.marks_eq_map (b : Backend R M P) (rule : Option FillRule) (stroked : Bool)
    (content : Content) :
    b.marks rule stroked content =
      ((Backend.values b.layers).marks rule stroked content).map (Mark.map b.represent) := by
  cases content with
  | shape shape => cases rule <;> cases stroked <;> rfl
  | image | linearGradient | radialGradient => rfl

namespace Parametric

variable {b : Backend R M P} {b' : Backend S N Q}
  {T : List (Command R M P) → List (Command S N Q) → Prop} (h : Parametric b b' T)
include h

/-- Streams of several values are related if those of each value are. -/
theorem flatMap {α : Type} {xs : List α} {g : α → List (Command R M P)}
    {g' : α → List (Command S N Q)} (hg : ∀ x ∈ xs, T (g x) (g' x)) :
    T (xs.flatMap g) (xs.flatMap g') := by
  induction xs with
  | nil => exact h.nil
  | cons x xs ih =>
    rw [List.flatMap_cons, List.flatMap_cons]
    obtain ⟨hx, hxs⟩ := List.forall_mem_cons.1 hg
    exact h.append hx (ih hxs)

/-- Streams of single commands are related command by command. -/
theorem map {α : Type} (xs : List α) {g : α → Command R M P} {g' : α → Command S N Q}
    (hg : ∀ x, T [g x] [g' x]) : T (xs.map g) (xs.map g') := by
  rw [List.map_eq_flatMap, List.map_eq_flatMap]
  exact h.flatMap fun x _ => hg x

/-- A clipping mask holds the stream of its node. -/
theorem clipCommands {clip : Option (Clip Node)}
    (ih : ∀ part ∈ clip.toList.flatMap Clip.nodes, T (part.lower b) (part.lower b')) :
    T (clipCommands b clip) (SceneCode.clipCommands b' clip) := by
  match clip with
  | none => exact h.nil
  | some (.shape shape rule) => exact h.setting (.clip shape rule)
  | some (.mask content frame) =>
    exact h.mask frame (ih content (by simp [Clip.nodes]))

/-- A pattern holds the streams of its nodes. -/
theorem fillCommands {fill : Option (Fill Node)}
    (ih : ∀ part ∈ fill.toList.flatMap (fun fill => fill.paint.nodes),
      T (part.lower b) (part.lower b')) :
    T (fillCommands b fill) (SceneCode.fillCommands b' fill) := by
  match fill with
  | none => exact h.nil
  | some ⟨.color color, _⟩ => exact h.setting (.fill color)
  | some ⟨.pattern tile content, _⟩ =>
    refine h.pattern tile content ?_
    rw [lowerAll_eq_flatMap, lowerAll_eq_flatMap]
    exact h.flatMap fun part hpart => ih part (by simpa [Paint.nodes] using hpart)

/-- An opacity below one is one command on both sides. -/
theorem opacityCommands (opacity : Single) :
    T (b.opacityCommands opacity) (b'.opacityCommands opacity) := by
  rw [Backend.opacityCommands, Backend.opacityCommands]
  split
  · exact h.setting (.alpha opacity)
  · exact h.nil

theorem blendCommands (mode : BlendMode) : T (b.blendCommands mode) (b'.blendCommands mode) := by
  rw [Backend.blendCommands, Backend.blendCommands]
  split
  · exact h.nil
  · exact h.setting (.blendMode mode)

theorem strokeCommands (stroke : Stroke) :
    T (b.strokeCommands stroke) (b'.strokeCommands stroke) := by
  let settings : List (Setting .scene Empty Empty) :=
    [.stroke stroke.color, .lineWidth stroke.width, .lineCap stroke.cap, .lineJoin stroke.join,
      .miterLimit stroke.miterLimit]
  exact h.map settings h.setting

/-- Which marks are made depends on the node and not on the backend. -/
theorem contentCommands (n : Node) :
    T ((n.content.toList.flatMap (b.marks (n.fill.map Fill.rule) n.stroke.isSome)).map .mark)
      ((n.content.toList.flatMap (b'.marks (n.fill.map Fill.rule) n.stroke.isSome)).map .mark) := by
  rw [List.map_flatMap, List.map_flatMap]
  refine h.flatMap fun content _ => ?_
  rw [b.marks_eq_map, b'.marks_eq_map, List.map_map, List.map_map]
  exact h.map _ h.mark

/-- The stream inside the bracket of a node is put together from those of its parts. -/
theorem inside_of_parts {n : Node} (ih : ∀ part ∈ n.parts, T (part.lower b) (part.lower b')) :
    T (n.inside b) (n.inside b') := by
  -- The streams of parts stand in a mask, in a pattern, and side by side.
  simp only [Node.parts, List.forall_mem_append] at ih
  obtain ⟨⟨hmask, hpattern⟩, hchildren⟩ := ih
  have htransforms := h.map n.transforms h.transform
  have hclip := h.clipCommands hmask
  have hopacity := h.opacityCommands n.opacity
  have hblend := h.blendCommands n.blendMode
  have hfill := h.fillCommands hpattern
  have hstroke := h.flatMap fun stroke (_ : stroke ∈ n.stroke.toList) => h.strokeCommands stroke
  have hdrawn := h.append (h.flatMap hchildren) (h.contentCommands n)
  have hstate := h.append (h.append (h.append htransforms hclip) hopacity) hblend
  have hstyle := h.append (h.append hstate hfill) hstroke
  rw [Node.inside, Node.inside, lowerAll_eq_flatMap, lowerAll_eq_flatMap]
  refine h.append hstyle ?_
  -- Whether there is to be a layer is a matter of the node, and whether there can be one a matter
  -- of the backend.
  by_cases hlayer : wantsLayer n.isolated n.opacity n.content n.children = true
  · simpa only [hlayer, Bool.true_and] using h.layered hdrawn
  · simpa only [hlayer, Bool.false_and, Bool.false_eq_true, if_false] using hdrawn

/-- The relation holds between the two streams of every node. -/
theorem lower (n : Node) : T (n.lower b) (n.lower b') := by
  induction n using Node.parts_induction with
  | step n ih =>
    rw [Node.lower_eq, Node.lower_eq]
    exact h.saved (h.inside_of_parts ih)

/-- By recursion on the size of the node, this holds without assumptions. -/
theorem inside (n : Node) : T (n.inside b) (n.inside b') :=
  h.inside_of_parts fun part _ => h.lower part

end Parametric

end Parametric

/-! ## Streams handed to a backend -/

section Recording

variable {R : Resources} {Mask Pattern : Type}

/-- What a backend has made of a stream, with the streams it was handed for that: this one, and
    those for the masks and patterns in it, to any depth. -/
structure Recorded (R : Resources) (Mask Pattern Made : Type) where
  made : Made
  streams : List (List (Command R Mask Pattern))

/-- A command whose mask or pattern is recorded. -/
abbrev RecordedCommand (R : Resources) (Mask Pattern : Type) :=
  Command R (Recorded R Mask Pattern Mask) (Recorded R Mask Pattern Pattern)

namespace RecordedCommand

/-- The command without its record. -/
def made : RecordedCommand R Mask Pattern → Command R Mask Pattern :=
  Command.map (.identity R) Recorded.made Recorded.made

/-- The streams in the record of a command. -/
def streams : RecordedCommand R Mask Pattern → List (List (Command R Mask Pattern))
  | .set (.clipMask mask _) => mask.streams
  | .set (.fillPattern pattern) => pattern.streams
  | _ => []

end RecordedCommand

/-- The same backend, which also keeps a record of the streams it is handed. -/
def Backend.recording (b : Backend R Mask Pattern) :
    Backend R (Recorded R Mask Pattern Mask) (Recorded R Mask Pattern Pattern) where
  layers := b.layers
  represent := b.represent
  mask s size :=
    let stream := s.map RecordedCommand.made
    ⟨b.mask stream size, stream :: s.flatMap RecordedCommand.streams⟩
  pattern tile content s :=
    let stream := s.map RecordedCommand.made
    ⟨b.pattern tile content stream, stream :: s.flatMap RecordedCommand.streams⟩

/-- Without the records it is the stream, the stream is balanced, and so are all streams in the
    records. -/
structure RecordsBalanced (recorded : List (RecordedCommand R Mask Pattern))
    (s : List (Command R Mask Pattern)) : Prop where
  made_eq : recorded.map RecordedCommand.made = s
  balanced : Balanced s
  streams : ∀ stream ∈ recorded.flatMap RecordedCommand.streams, Balanced stream

namespace RecordsBalanced

variable {recorded : List (RecordedCommand R Mask Pattern)} {s : List (Command R Mask Pattern)}

/-- Between a bracket, what is recorded stays balanced. -/
theorem bracketed (h : RecordsBalanced recorded s) (bracket : Bracket) :
    RecordsBalanced (bracketed bracket recorded) (SceneCode.bracketed bracket s) where
  made_eq := by
    simp only [SceneCode.bracketed, List.map_cons, List.map_append, List.map_nil, h.made_eq]
    rfl
  balanced := h.balanced.wrap
  streams := by simpa [SceneCode.bracketed, RecordedCommand.streams] using h.streams

/-- A command that is no bracket. -/
theorem single {d : RecordedCommand R Mask Pattern} {c : Command R Mask Pattern}
    (hd : RecordedCommand.made d = c) (ho : c.opens? = none) (hc : c.closes? = none)
    (h : ∀ stream ∈ RecordedCommand.streams d, Balanced stream) : RecordsBalanced [d] [c] where
  made_eq := congrArg (fun c => [c]) hd
  balanced := .other ho hc .nil
  streams := by simpa using h

end RecordsBalanced

/-- With and without recording, lowering puts the same commands together. -/
theorem parametric_recordsBalanced (b : Backend R Mask Pattern) :
    Parametric b.recording b RecordsBalanced where
  nil := ⟨rfl, .nil, List.forall_mem_nil _⟩
  append h h' := {
    made_eq := by rw [List.map_append, h.made_eq, h'.made_eq]
    balanced := h.balanced.append h'.balanced
    streams := by
      rw [List.flatMap_append, List.forall_mem_append]
      exact ⟨h.streams, h'.streams⟩ }
  saved h := h.bracketed .state
  layered h := by
    by_cases hl : b.layers = true
    · rw [if_pos hl, if_pos (show b.recording.layers = true from hl)]
      exact h.bracketed .layer
    · rw [if_neg hl, if_neg (show ¬ b.recording.layers = true from hl)]
      exact h
  transform step := .single (by cases step <;> rfl) rfl rfl (List.forall_mem_nil _)
  setting setting := by
    cases setting with
    | fillPattern pattern => exact pattern.elim
    | clipMask mask _ => exact mask.elim
    | _ => exact .single rfl rfl rfl (List.forall_mem_nil _)
  mark mark := .single (by cases mark <;> rfl) rfl rfl (List.forall_mem_nil _)
  mask {s s'} frame h := by
    obtain ⟨rfl, hbalanced, hstreams⟩ := h
    exact .single rfl rfl rfl (List.forall_mem_cons.2 ⟨hbalanced, hstreams⟩)
  pattern tile content h := by
    obtain ⟨rfl, hbalanced, hstreams⟩ := h
    exact .single rfl rfl rfl (List.forall_mem_cons.2 ⟨hbalanced, hstreams⟩)

/-- The stream of a node is balanced, and it is a single bracket: a saved state around a balanced
    stream, so that its first command is closed by its last one. And all streams that the backend
    is handed when the node is lowered are balanced, to any depth. -/
theorem checkBalance_lower_and_recorded (b : Backend R Mask Pattern) (n : Node) :
    checkBalance (n.lower b) = .ok () ∧
      (∃ inside, n.lower b = bracketed .state inside ∧ checkBalance inside = .ok () ∧
        closesAtEnd 1 (inside ++ [.pop .state]) = true) ∧
      (n.lower b.recording).map RecordedCommand.made = n.lower b ∧
      ∀ stream ∈ (n.lower b.recording).flatMap RecordedCommand.streams,
        checkBalance stream = .ok () := by
  simp only [checkBalance_eq_ok_iff]
  have hlower := (parametric_recordsBalanced b).lower n
  have hinside := ((parametric_recordsBalanced b).inside n).balanced
  refine ⟨hlower.balanced, ⟨n.inside b, n.lower_eq b, hinside, ?_⟩, hlower.made_eq,
    hlower.streams⟩
  -- After a balanced stream the depth is one again, and the saved state is restored.
  rw [hinside.closesAtEnd_append]
  rfl

end Recording

/-! ## Change of representation -/

section Nesting

variable {R : Resources} (layers : Bool) (r : Representation .scene R)

/-- Converting resources leaves brackets as they are. -/
theorem keepsBrackets_map {S : Resources} (r : Representation R S) :
    KeepsBrackets (DrawingCommand.map r) where
  opens c := by cases c <;> rfl
  closes c := by cases c <;> rfl

theorem map_bracketed {S : Resources} (r : Representation R S) (bracket : Bracket)
    (s : Drawing R) :
    List.map (DrawingCommand.map r) (bracketed bracket s) =
      bracketed bracket (List.map (DrawingCommand.map r) s) := by
  rw [bracketed, List.map_cons, List.map_append]
  rfl

/-- The stream of a mask is converted with it. -/
theorem map_clipMask {S : Resources} (r : Representation R S) (s : Drawing R) (size : R.Size)
    (frame : R.Rect) :
    DrawingCommand.map r (.set (.clipMask (.of s size) frame)) =
      .set (.clipMask (.of (List.map (DrawingCommand.map r) s) (r.size size)) (r.rect frame)) := by
  rw [← Drawing.map_eq]
  rfl

/-- The stream of a pattern is converted with it. -/
theorem map_fillPattern {S : Resources} (r : Representation R S) (tile : R.Rect)
    (s : Drawing R) :
    DrawingCommand.map r (.set (.fillPattern (.of tile s))) =
      .set (.fillPattern (.of (r.rect tile) (List.map (DrawingCommand.map r) s))) := by
  rw [← Drawing.map_eq]
  rfl

/-- Step by step, lowering with converted resources is lowering and converting. -/
theorem parametric_map : Parametric (.values layers) (.nesting layers r)
    fun s s' => List.map (DrawingCommand.map r) s = s' where
  nil := rfl
  append h h' := by rw [List.map_append, h, h']
  saved h := by rw [map_bracketed, h]
  layered h := by
    cases layers with
    | false => exact h
    | true => exact (map_bracketed r .layer _).trans (congrArg (bracketed .layer) h)
  transform step := by cases step <;> rfl
  setting setting := by
    cases setting with
    | fillPattern pattern => exact pattern.elim
    | clipMask mask _ => exact mask.elim
    | _ => rfl
  mark mark := by cases mark <;> rfl
  mask {s s'} frame h := by
    obtain rfl := h
    exact congrArg (fun c => [c]) (map_clipMask r s frame.size frame)
  pattern {s s'} tile _ h := by
    obtain rfl := h
    exact congrArg (fun c => [c]) (map_fillPattern r tile s)

/-- Lowering to a backend that keeps the streams of masks and patterns is lowering to scene values,
    and then changing the representation. -/
theorem lower_nesting (n : Node) :
    n.lower (.nesting layers r) = Drawing.map r (n.commands layers) := by
  rw [Drawing.map_eq]
  exact ((parametric_map layers r).lower n).symm

/-- The stream of generated code is that of scene values, converted field by field, the streams of
    masks and patterns included; whichever simplifications are used. -/
theorem apply_lower_backend (precision : Nat) (use : Simplifications) (n : Node) :
    use.apply (n.lower (Swift.backend precision)) =
      Drawing.map (Swift.representation precision) (use.apply (n.commands true)) := by
  rw [Swift.backend, lower_nesting, Drawing.map_eq, Drawing.map_eq,
    (keepsBrackets_map _).apply_map]

end Nesting

end SceneCode
