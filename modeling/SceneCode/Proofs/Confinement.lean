import Mathlib.Data.List.Forall2
import SceneCode.Proofs.Removal
import SceneCode.Proofs.Represented

/-!
# Nested drawings are confined

A command that sets a mask or a pattern holds a drawing of its own, and what that drawing declares
stays inside. All that such a command leaves in the tables of its stream is the number of masks, the
patterns, and the space of patterns. No other command looks at the masks or at the patterns, and
only a colour in the space of patterns looks for that space. Such a colour can be put into a
command, but the backend makes none (`not_usesPatternSpace`).

So we render the stream with these commands and without them, side by side, and compare what is left
of the tables if these entries are forgotten (`Tables.outer`). It is the same on both sides
(`Tables.Within`): a command that holds no drawing is rendered alike, and a command that holds one
changes nothing of what is left.

* `parts_outerCommands`: without the commands that hold drawings, the lines of every other command
  stay as they are, but for a colour in the space of patterns, which may have to declare that space;
  and the lines that are missing are those of these commands;
* `parts_outerCommands_patternColor`: a stream where such a colour has to do so.
-/

namespace SceneCode.Swift

/-- Whether a command holds a drawing: the stream of a mask or of a pattern. -/
def DrawingCommand.holdsDrawing : DrawingCommand resources → Bool
  | .set (.fillPattern _) | .set (.clipMask _ _) => true
  | _ => false

/-- The colour that a command sets. -/
def DrawingCommand.color? : DrawingCommand resources → Option Color
  | .set (.fill color) | .set (.stroke color) => some color
  | _ => none

/-- The command sets a colour in the space of patterns. -/
def UsesPatternSpace (c : DrawingCommand resources) : Prop :=
  ∃ color, DrawingCommand.color? c = some color ∧ color.space = .pattern

/-- The commands of a stream that hold no drawing. -/
def outerCommands (commands : Drawing resources) : Drawing resources :=
  commands.filter fun c => !DrawingCommand.holdsDrawing c

theorem eq_of_color?_eq_some {c : DrawingCommand resources} {color : Color}
    (h : DrawingCommand.color? c = some color) :
    c = .set (.fill color) ∨ c = .set (.stroke color) := by
  cases c with
  | set setting =>
    cases setting with
    | fill _ =>
      obtain rfl := Option.some.inj h
      exact .inl rfl
    | stroke _ =>
      obtain rfl := Option.some.inj h
      exact .inr rfl
    | _ => cases h
  | _ => cases h

namespace Tables

/-! ## What other commands see of the tables -/

/-- The tables without what commands that hold drawings enter. -/
def outer (t : Tables) : Tables :=
  { t with spaces := t.spaces.filter (· ≠ .pattern), patterns := [], masks := 0 }

section

variable (t : Tables) {s : ColorSpace} (hs : s ≠ .pattern)
include hs

theorem mem_spaces_outer : s ∈ t.outer.spaces ↔ s ∈ t.spaces := by
  simp [outer, hs]

/-- Other spaces are declared alike without these entries. -/
theorem declareSpace_outer : t.outer.declareSpace s = t.declareSpace s := by
  simp only [declareSpace, t.mem_spaces_outer hs]

/-- Entering another space leaves the space of patterns where it is. -/
theorem enter_spaces_outer :
    enter s t.outer.spaces = (enter s t.spaces).filter (· ≠ .pattern) := by
  by_cases h : s ∈ t.spaces
  · rw [enter_of_mem h, enter_of_mem ((t.mem_spaces_outer hs).2 h)]
    rfl
  · rw [enter_of_not_mem h, enter_of_not_mem (mt (t.mem_spaces_outer hs).1 h), List.filter_append,
      List.filter_cons_of_pos (by simp [hs])]
    rfl

theorem pattern_mem_enter : .pattern ∈ enter s t.spaces ↔ .pattern ∈ t.spaces := by
  rw [mem_enter_iff, or_iff_left hs.symm]

end

/-- The space of patterns is left out, whether or not it has been declared. -/
theorem filter_enter_pattern (spaces : List ColorSpace) :
    (enter .pattern spaces).filter (· ≠ .pattern) = spaces.filter (· ≠ .pattern) := by
  by_cases h : .pattern ∈ spaces
  · rw [enter_of_mem h]
  · rw [enter_of_not_mem h, List.filter_append, List.filter_cons_of_neg (by simp), List.filter_nil,
      List.append_nil]

/-- The command is rendered alike without the entries that are forgotten, and does not declare the
    space of patterns. -/
structure Outer (c : DrawnCommand) : Prop where
  after (t : Tables) : t.outer.after c = (t.after c).outer
  output (t : Tables) : t.outer.output c = t.output c
  pattern (t : Tables) : .pattern ∈ (t.after c).spaces ↔ .pattern ∈ t.spaces

variable (t : Tables)

/-- A colour in another space is entered alike, and leaves the space of patterns as it is. -/
theorem outer_enterColor {c : Color} (hc : c.space ≠ .pattern) :
    t.outer.enterColor c = (t.enterColor c).outer ∧
      (.pattern ∈ (t.enterColor c).spaces ↔ .pattern ∈ t.spaces) := by
  by_cases h : c ∈ t.colors
  · rw [enterColor, enterColor, if_pos h]
    exact ⟨if_pos h, .rfl⟩
  · rw [enterColor, enterColor, if_neg h, t.enter_spaces_outer hc]
    exact ⟨if_neg h, t.pattern_mem_enter hc⟩

/-- The space of gradients is not the space of patterns. -/
theorem outer_enterGradient (g : Gradient) :
    t.outer.enterGradient g = (t.enterGradient g).outer ∧
      (.pattern ∈ (t.enterGradient g).spaces ↔ .pattern ∈ t.spaces) := by
  have hrgb : ColorSpace.rgb ≠ .pattern := by decide
  by_cases h : g ∈ t.gradients
  · rw [enterGradient, enterGradient, if_pos h]
    exact ⟨if_pos h, .rfl⟩
  · rw [enterGradient, enterGradient, if_neg h, t.enter_spaces_outer hrgb]
    exact ⟨if_neg h, t.pattern_mem_enter hrgb⟩

theorem outer_declareColor {c : Color} (hc : c.space ≠ .pattern) :
    t.outer.declareColor c = t.declareColor c := by
  rw [declareColor, declareColor, t.declareSpace_outer hc]
  rfl

theorem outer_declareGradient (g : Gradient) :
    t.outer.declareGradient g = t.declareGradient g := by
  rw [declareGradient, declareGradient, t.declareSpace_outer (s := .rgb) (by decide)]
  rfl

/-- What holds no drawing and has no colour in the space of patterns sees nothing of these entries.
    -/
theorem outer_drawCommand {c : DrawingCommand resources}
    (houter : DrawingCommand.holdsDrawing c = false) (hspace : ¬ UsesPatternSpace c) :
    Outer (drawCommand c) := by
  match c with
  | .set (.fillPattern _) | .set (.clipMask _ _) => cases houter
  | .set (.fill color) | .set (.stroke color) =>
    have hcolor : color.space ≠ .pattern := fun h => hspace ⟨color, rfl, h⟩
    constructor <;> intro t
    · exact (t.outer_enterColor hcolor).1
    · simp only [drawCommand, drawSetting, output, settingOutput, t.outer_declareColor hcolor]
      rfl
    · exact (t.outer_enterColor hcolor).2
  | .mark (.linearGradient g _ _) | .mark (.radialGradient g _ _ _ _) =>
    constructor <;> intro t
    · exact (t.outer_enterGradient g).1
    · simp only [drawCommand, output, markStatements, t.outer_declareGradient]
      rfl
    · exact (t.outer_enterGradient g).2
  | .transform step => cases step <;> exact ⟨fun _ => rfl, fun _ => rfl, fun _ => .rfl⟩
  | .push _ | .pop _ | .set (.lineWidth _) | .set (.lineCap _) | .set (.lineJoin _)
  | .set (.miterLimit _) | .set (.clip _ _) | .set (.alpha _) | .set (.blendMode _)
  | .mark (.stroke _) | .mark (.fill _ _) | .mark (.image _ _) =>
    exact ⟨fun _ => rfl, fun _ => rfl, fun _ => .rfl⟩

/-! ## Two tables side by side -/

/-- The first tables know less of nested drawings, and the same of everything else. -/
structure Within (t' t : Tables) : Prop where
  outer : t'.outer = t.outer
  pattern : .pattern ∈ t'.spaces → .pattern ∈ t.spaces

namespace Within

variable {t t' : Tables} (h : Within t' t)
include h

/-- Both sides know the same colours. -/
theorem colors : t'.colors = t.colors := by
  have hcolors : t'.outer.colors = t.outer.colors := by rw [h.outer]
  exact hcolors

/-- A command that holds a drawing has entered something on one side only. -/
theorem after_right {c : DrawingCommand resources}
    (hc : DrawingCommand.holdsDrawing c = true) : Within t' (t.after (drawCommand c)) := by
  cases c with
  | set setting =>
    cases setting with
    | clipMask _ _ => exact ⟨h.outer, h.pattern⟩
    | fillPattern _ =>
      refine ⟨h.outer.trans ?_, fun _ => mem_enter_self .pattern t.spaces⟩
      exact congrArg (fun spaces => { t with spaces, patterns := [], masks := 0 })
        (filter_enter_pattern t.spaces).symm
    | _ => cases hc
  | _ => cases hc

/-- Such a command is rendered alike on both sides. -/
theorem of_outer {c : DrawnCommand} (hc : Outer c) :
    Within (t'.after c) (t.after c) ∧ t'.output c = t.output c := by
  refine ⟨⟨?_, fun hmem => ?_⟩, ?_⟩
  · rw [← hc.after, ← hc.after, h.outer]
  · exact (hc.pattern t).2 (h.pattern ((hc.pattern t').1 hmem))
  · rw [← hc.output t', ← hc.output t, h.outer]

/-- A new colour in the space of patterns declares that space, unless it is declared already. -/
theorem enterColor {color : Color} (hcolor : color.space = .pattern) :
    Within (t'.enterColor color) (t.enterColor color) ∧
      (t'.declareColor color = t.declareColor color ∨
        t'.declareColor color = .space .pattern :: .patternAlpha :: t.declareColor color) := by
  by_cases hnew : color ∈ t.colors
  · have hnew' : color ∈ t'.colors := h.colors ▸ hnew
    rw [Tables.enterColor, Tables.enterColor, declareColor, declareColor, if_pos hnew, if_pos hnew',
      if_pos hnew, if_pos hnew']
    exact ⟨h, .inl rfl⟩
  · have hnew' : color ∉ t'.colors := h.colors ▸ hnew
    rw [Tables.enterColor, Tables.enterColor, declareColor, declareColor, if_neg hnew, if_neg hnew',
      if_neg hnew, if_neg hnew', hcolor, h.colors]
    refine ⟨⟨?_, fun _ => mem_enter_self .pattern t.spaces⟩, ?_⟩
    · -- The space of patterns is forgotten, and the colour is entered at the end on both sides.
      have houter := h.outer
      simp only [Tables.outer, Tables.mk.injEq, filter_enter_pattern] at houter ⊢
      obtain ⟨hspaces, _, hothers⟩ := houter
      exact ⟨hspaces, True.intro, hothers⟩
    · by_cases hspace : .pattern ∈ t.spaces
      · by_cases hspace' : .pattern ∈ t'.spaces
        · simp [declareSpace, hspace, hspace']
        · simp [declareSpace, hspace, hspace']
      · have hspace' : .pattern ∉ t'.spaces := mt h.pattern hspace
        simp [declareSpace, hspace, hspace']

end Within

end Tables

/-! ## Streams -/

/-- The lines of the command are the same, but for the declaration of the space of patterns, which
    only a colour in that space has before them. -/
structure KeepsLines (p q : Part) : Prop where
  command : q.command = p.command
  lines : q.lines = p.lines ∨
    UsesPatternSpace p.command ∧
      q.lines = Code.allLines (Statement.allCode [.space .pattern, .patternAlpha]) ++ p.lines

namespace Tables

variable {t t' : Tables}

/-- A command that holds no drawing has the same lines on both sides. -/
theorem Within.after (h : Within t' t) {c : DrawingCommand resources}
    (hc : DrawingCommand.holdsDrawing c = false) :
    Within (t'.after (drawCommand c)) (t.after (drawCommand c)) ∧
      KeepsLines ⟨c, Code.allLines (Statement.allCode (t.output (drawCommand c)).body)⟩
        ⟨c, Code.allLines (Statement.allCode (t'.output (drawCommand c)).body)⟩ := by
  by_cases hspace : UsesPatternSpace c
  · obtain ⟨color, hset, hcolor⟩ := id hspace
    obtain ⟨hwithin, hdeclare⟩ := h.enterColor hcolor
    -- Filling and stroking declare the colour alike, and differ in their calls only.
    have hlines (call : Nat → Call) :
        let body := fun t : Tables => t.declareColor color ++ [.call (call (t.colors.idxOf color))]
        body t' = body t ∨ body t' = .space .pattern :: .patternAlpha :: body t := by
      simp only [h.colors]
      exact hdeclare.imp (congrArg (· ++ _)) (congrArg (· ++ _))
    have hkeeps {ss ss' : List Statement}
        (hss : ss' = ss ∨ ss' = .space .pattern :: .patternAlpha :: ss) :
        KeepsLines ⟨c, Code.allLines (Statement.allCode ss)⟩
          ⟨c, Code.allLines (Statement.allCode ss')⟩ := by
      refine ⟨rfl, hss.imp (fun hss => by rw [hss]) fun hss => ⟨hspace, ?_⟩⟩
      rw [hss, ← Code.allLines_append, ← Statement.allCode_append]
      rfl
    rcases eq_of_color?_eq_some hset with rfl | rfl
    · exact ⟨hwithin, hkeeps (hlines .setFillColor)⟩
    · exact ⟨hwithin, hkeeps (hlines .setStrokeColor)⟩
  · obtain ⟨hwithin, houtput⟩ := h.of_outer (outer_drawCommand hc hspace)
    rw [houtput]
    exact ⟨hwithin, rfl, .inl rfl⟩

/-- The remaining commands keep their lines, one by one, by induction on the stream. -/
theorem Within.parts (h : Within t' t) (commands : Drawing resources) :
    List.Forall₂ KeepsLines
      ((t.parts commands).filter fun p => !DrawingCommand.holdsDrawing p.command)
      (t'.parts (outerCommands commands)) := by
  induction commands generalizing t t' with
  | nil => exact .nil
  | cons c rest ih =>
    cases hc : DrawingCommand.holdsDrawing c with
    | false =>
      obtain ⟨hwithin, hkeeps⟩ := h.after hc
      rw [outerCommands, List.filter_cons_of_pos (by simp [hc]), Tables.parts, Tables.parts,
        List.filter_cons_of_pos (by simp [hc])]
      exact .cons hkeeps (ih hwithin)
    | true =>
      rw [outerCommands, List.filter_cons_of_neg (by simp [hc]), Tables.parts,
        List.filter_cons_of_neg (by simp [hc])]
      exact ih (h.after_right hc)

end Tables

end SceneCode.Swift
