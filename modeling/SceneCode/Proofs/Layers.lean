import SceneCode.Proofs.Backends

/-!
# Drawing without layers

A backend that has no layers gets the stream that it would get otherwise, except that the commands
that open and close layers are missing: between them everything is drawn as before, and so it is in
masks and patterns, whose streams are without layers as well (`Drawing.withoutLayers`).

Whether there are layers is asked in one place of lowering only, but it is asked again for each node
in a mask or a pattern. The relation "the second stream is the first one without layers" is kept by
all that lowering does with streams, so it holds between what the two backends make of a node.

* `commands_false_eq_withoutLayers`: the stream of a node without layers is its stream with layers,
  less the commands that open and close them, to any depth; so no such command is left.
-/

namespace SceneCode

variable {R : Resources}

/-! ## Leaving out layers -/

mutual

/-- The mask of the stream without layers. -/
def Mask.withoutLayers : Mask R → Mask R
  | .of contents size => .of (Drawing.withoutLayers contents) size
termination_by structural m => m

/-- The pattern of the stream without layers. -/
def Pattern.withoutLayers : Pattern R → Pattern R
  | .of tile contents => .of tile (Drawing.withoutLayers contents)
termination_by structural p => p

/-- The stream without the commands that open and close layers, those in its masks and patterns
    included. -/
def Drawing.withoutLayers : List (DrawingCommand R) → Drawing R
  | [] => []
  | c :: rest => DrawingCommand.withoutLayers c ++ Drawing.withoutLayers rest
termination_by structural d => d

/-- What is left of a command. -/
def DrawingCommand.withoutLayers : Command R (Mask R) (Pattern R) → Drawing R
  | .push .layer => []
  | .pop .layer => []
  | .push .state => [.push .state]
  | .pop .state => [.pop .state]
  | .transform step => [.transform step]
  | .set setting => [.set (DrawingSetting.withoutLayers setting)]
  | .mark mark => [.mark mark]
termination_by structural c => c

/-- The setting of a mask or a pattern without layers. -/
def DrawingSetting.withoutLayers : Setting R (Mask R) (Pattern R) → DrawingSetting R
  | .fillPattern pattern => .fillPattern pattern.withoutLayers
  | .clipMask mask frame => .clipMask mask.withoutLayers frame
  | .fill color => .fill color
  | .stroke color => .stroke color
  | .lineWidth width => .lineWidth width
  | .lineCap cap => .lineCap cap
  | .lineJoin join => .lineJoin join
  | .miterLimit limit => .miterLimit limit
  | .clip path rule => .clip path rule
  | .alpha alpha => .alpha alpha
  | .blendMode mode => .blendMode mode
termination_by structural s => s

end

theorem Drawing.withoutLayers_eq_flatMap (s : Drawing R) :
    Drawing.withoutLayers s = List.flatMap DrawingCommand.withoutLayers s := by
  induction s with
  | nil => rfl
  | cons c rest ih => rw [Drawing.withoutLayers, ih, List.flatMap_cons]

theorem Drawing.withoutLayers_append (s t : Drawing R) :
    Drawing.withoutLayers (s ++ t) = Drawing.withoutLayers s ++ Drawing.withoutLayers t := by
  simp only [Drawing.withoutLayers_eq_flatMap, List.flatMap_append]

/-- A bracket that saves the state stays. -/
theorem Drawing.withoutLayers_bracketed_state (s : Drawing R) :
    Drawing.withoutLayers (bracketed .state s) = bracketed .state (Drawing.withoutLayers s) := by
  rw [bracketed, Drawing.withoutLayers, Drawing.withoutLayers_append]
  rfl

/-- A layer goes away with both of its commands, and what is in it stays. -/
theorem Drawing.withoutLayers_bracketed_layer (s : Drawing R) :
    Drawing.withoutLayers (bracketed .layer s) = Drawing.withoutLayers s := by
  rw [bracketed, Drawing.withoutLayers, Drawing.withoutLayers_append]
  exact List.append_nil _

/-! ## No layers are left -/

namespace DrawingCommand

/-- The command neither opens nor closes a layer. -/
def Layerless (c : DrawingCommand R) : Prop := c ≠ .push .layer ∧ c ≠ .pop .layer

/-- The streams inside a setting lose their layers too. -/
theorem inner_set_withoutLayers (setting : DrawingSetting R) :
    inner (.set (DrawingSetting.withoutLayers setting)) =
      Drawing.withoutLayers (inner (.set setting)) := by
  match setting with
  | .fillPattern (.of _ _) | .clipMask (.of _ _) _ => rfl
  | .fill _ | .stroke _ | .lineWidth _ | .lineCap _ | .lineJoin _ | .miterLimit _ | .clip _ _
  | .alpha _ | .blendMode _ => rfl

/-- No layer is left, at any depth. The recursion is that of the deletion. -/
theorem everywhere_of_mem_withoutLayers (c : DrawingCommand R) :
    ∀ d ∈ withoutLayers c, Everywhere Layerless d := by
  induction c using nested_induction with
  | step c ih =>
    intro d hd
    match c with
    | .push .layer | .pop .layer => exact absurd hd List.not_mem_nil
    | .push .state | .pop .state | .transform _ | .mark _ =>
      obtain rfl := List.mem_singleton.1 hd
      exact .of_inner_eq_nil ⟨nofun, nofun⟩ rfl
    | .set setting =>
      -- Only masks and patterns have streams inside, and these have been freed of layers.
      obtain rfl := List.mem_singleton.1 hd
      refine .intro ⟨nofun, nofun⟩ fun e he => ?_
      rw [inner_set_withoutLayers, Drawing.withoutLayers_eq_flatMap] at he
      obtain ⟨inside, hinside, he⟩ := List.mem_flatMap.1 he
      exact ih inside hinside e he

end DrawingCommand

theorem Drawing.everywhere_of_mem_withoutLayers (s : Drawing R) :
    ∀ c ∈ Drawing.withoutLayers s, DrawingCommand.Everywhere DrawingCommand.Layerless c := by
  intro c hc
  rw [Drawing.withoutLayers_eq_flatMap] at hc
  obtain ⟨d, _, hc⟩ := List.mem_flatMap.1 hc
  exact DrawingCommand.everywhere_of_mem_withoutLayers d c hc

/-! ## The two backends -/

/-- Step by step, lowering without layers is lowering with them and deleting them. -/
theorem parametric_withoutLayers (r : Representation .scene R) :
    Parametric (.nesting true r) (.nesting false r) fun s s' => Drawing.withoutLayers s = s' where
  nil := rfl
  append h h' := by rw [Drawing.withoutLayers_append, h, h']
  saved h := by rw [Drawing.withoutLayers_bracketed_state, h]
  layered h := (Drawing.withoutLayers_bracketed_layer _).trans h
  transform step := rfl
  setting setting := by
    cases setting with
    | fillPattern pattern => exact pattern.elim
    | clipMask mask _ => exact mask.elim
    | _ => rfl
  mark mark := rfl
  mask frame h := by
    obtain rfl := h
    rfl
  pattern tile _ h := by
    obtain rfl := h
    rfl

/-- Without layers, the stream of a node is the one with layers, less the commands that open and
    close layers, in masks and patterns as well; and so no layer is left in it, at any depth. -/
theorem commands_false_eq_withoutLayers (n : Node) :
    n.commands false = Drawing.withoutLayers (n.commands true) ∧
      ∀ c ∈ n.commands false, DrawingCommand.Everywhere DrawingCommand.Layerless c := by
  have heq : Drawing.withoutLayers (n.commands true) = n.commands false :=
    (parametric_withoutLayers (.identity .scene)).lower n
  refine ⟨heq.symm, ?_⟩
  rw [← heq]
  exact Drawing.everywhere_of_mem_withoutLayers _

end SceneCode
