import SceneCode.Proofs.Nested
import SceneCode.Proofs.Simplify
import SceneCode.Swift.Renderer

/-!
# The tables of a stream

Tables only grow, and at their ends, so a resource keeps its index once it has one. Patterns are
declared ahead of everything else: a body is run when all patterns of its scope are already known.
That is no difference to the body. Rendered with those tables from the start, a stream becomes the
same statements, less the declarations of the patterns (`Tables.body_outputAll_withPatterns`). So
a body can be followed command by command, with tables to which no pattern is ever added.

* `Tables.body_outputAll_withPatterns`: the body of a stream does not depend on which of its
  patterns are in the tables already;
* `scope_drawAll`: the scope of a stream is what its simplified stream becomes;
* `foldl_render`: rendering streams one after the other is rendering them as one;
* `Composes.output`: what holds of the statements of every command, from tables to tables, holds
  of those of a stream;
* `follows_of_everywhere`: to show it of a command, it may be assumed of the stream inside.
-/

namespace SceneCode.Swift

theorem Output.append_assoc (o p q : Output) : o ++ p ++ q = o ++ (p ++ q) :=
  (Output.mk.injEq ..).mpr ⟨List.append_assoc .., List.append_assoc ..⟩

/-! ## One table -/

section Enter

variable {α : Type} [DecidableEq α] {a : α} {table : List α}

theorem enter_of_mem (h : a ∈ table) : enter a table = table := if_pos h

theorem enter_of_not_mem (h : a ∉ table) : enter a table = table ++ [a] := if_neg h

/-- Tables only grow at their ends. -/
theorem prefix_enter (a : α) (table : List α) : table <+: enter a table := by
  by_cases h : a ∈ table
  · exact (enter_of_mem h).symm ▸ List.prefix_refl table
  · rw [enter_of_not_mem h]
    exact List.prefix_append table [a]

theorem mem_enter_iff {b : α} : b ∈ enter a table ↔ b ∈ table ∨ b = a := by
  by_cases h : a ∈ table
  · rw [enter_of_mem h]
    exact ⟨.inl, fun hb => hb.elim id fun hb => hb ▸ h⟩
  · rw [enter_of_not_mem h, List.mem_append, List.mem_singleton]

theorem mem_enter_self (a : α) (table : List α) : a ∈ enter a table :=
  mem_enter_iff.2 (.inr rfl)

/-- What is in the table, or comes next, has the same index before and after. -/
theorem idxOf_enter (a : α) (table : List α) : (enter a table).idxOf a = table.idxOf a := by
  by_cases h : a ∈ table
  · rw [enter_of_mem h]
  · rw [enter_of_not_mem h, List.idxOf_append, if_neg h, List.idxOf_cons_self,
      List.idxOf_eq_length h, Nat.zero_add]

/-- A value stands at its index, once it has been entered. -/
theorem getElem?_idxOf_enter (a : α) (table : List α) :
    (enter a table)[table.idxOf a]? = some a := by
  have h := List.idxOf_lt_length_of_mem (mem_enter_self a table)
  rw [← idxOf_enter, List.getElem?_eq_getElem h, List.getElem_idxOf]

/-- After a resource has been entered, its index is in range. -/
theorem idxOf_lt_length_enter (a : α) (table : List α) :
    table.idxOf a < (enter a table).length := by
  rw [← idxOf_enter]
  exact List.idxOf_lt_length_of_mem (mem_enter_self a table)

/-- At its index stands the resource itself. -/
theorem getElem?_map_idxOf_enter {β : Type} (g : α → β) (a : α) (table : List α) :
    ((enter a table).map g)[table.idxOf a]? = some (g a) := by
  rw [List.getElem?_map, getElem?_idxOf_enter, Option.map_some]

/-- An index never changes, however the table grows. -/
theorem idxOf_eq_of_prefix_enter {final : List α} (h : enter a table <+: final) :
    final.idxOf a = table.idxOf a := by
  obtain ⟨rest, rfl⟩ := h
  rw [List.idxOf_append, if_pos (mem_enter_self a table), idxOf_enter]

end Enter

namespace Tables

/-- A colour is entered, whether or not its space is new. -/
theorem colors_enterColor (t : Tables) (c : Color) :
    (t.enterColor c).colors = enter c t.colors := by
  by_cases h : c ∈ t.colors
  · rw [enterColor, if_pos h, enter_of_mem h]
  · rw [enterColor, if_neg h, enter_of_not_mem h]

/-- A gradient is entered, whether or not its space is new. -/
theorem gradients_enterGradient (t : Tables) (g : Gradient) :
    (t.enterGradient g).gradients = enter g t.gradients := by
  by_cases h : g ∈ t.gradients
  · rw [enterGradient, if_pos h, enter_of_mem h]
  · rw [enterGradient, if_neg h, enter_of_not_mem h]

theorem patterns_enterColor (t : Tables) (c : Color) :
    (t.enterColor c).patterns = t.patterns := by
  by_cases h : c ∈ t.colors
  · rw [enterColor, if_pos h]
  · rw [enterColor, if_neg h]

theorem patterns_enterGradient (t : Tables) (g : Gradient) :
    (t.enterGradient g).patterns = t.patterns := by
  by_cases h : g ∈ t.gradients
  · rw [enterGradient, if_pos h]
  · rw [enterGradient, if_neg h]

/-! ## Patterns ahead of the body -/

/-- The tables with other patterns. -/
def withPatterns (t : Tables) (patterns : List (Pattern resources)) : Tables :=
  { t with patterns }

/-- Colours do not depend on the patterns in the tables. -/
theorem enterColor_withPatterns (t : Tables) (c : Color) (patterns : List (Pattern resources)) :
    (t.withPatterns patterns).enterColor c = (t.enterColor c).withPatterns patterns := by
  by_cases h : c ∈ t.colors
  · rw [enterColor, enterColor, if_pos h]
    exact if_pos h
  · rw [enterColor, enterColor, if_neg h]
    exact if_neg h

/-- Gradients do not depend on the patterns in the tables. -/
theorem enterGradient_withPatterns (t : Tables) (g : Gradient)
    (patterns : List (Pattern resources)) :
    (t.withPatterns patterns).enterGradient g = (t.enterGradient g).withPatterns patterns := by
  by_cases h : g ∈ t.gradients
  · rw [enterGradient, enterGradient, if_pos h]
    exact if_pos h
  · rw [enterGradient, enterGradient, if_neg h]
    exact if_neg h

variable {t : Tables} {final : List (Pattern resources)}

/-- The command has no declaration in the preamble, and nothing to do with the patterns. -/
structure PatternFree (c : DrawnCommand) : Prop where
  preamble_output (t : Tables) : (t.output c).preamble = []
  patterns_after (t : Tables) : (t.after c).patterns = t.patterns
  after_withPatterns (t : Tables) (final : List (Pattern resources)) :
    (t.withPatterns final).after c = (t.after c).withPatterns final
  body_output_withPatterns (t : Tables) (final : List (Pattern resources)) :
    ((t.withPatterns final).output c).body = (t.output c).body

/-- No command but a pattern changes the patterns, looks at them or has a preamble. -/
theorem patternFree {c : DrawnCommand} (h : ∀ p, c ≠ .set (.fillPattern p)) : PatternFree c := by
  match c with
  | .set (.fillPattern p) => exact absurd rfl (h p)
  -- Colours and gradients look at a table before they add anything.
  | .set (.fill c) | .set (.stroke c) =>
    exact ⟨fun _ => rfl, fun t => patterns_enterColor t c,
      fun t final => enterColor_withPatterns t c final, fun _ _ => rfl⟩
  | .mark (.linearGradient g _ _) | .mark (.radialGradient g _ _ _ _) =>
    exact ⟨fun _ => rfl, fun t => patterns_enterGradient t g,
      fun t final => enterGradient_withPatterns t g final, fun _ _ => rfl⟩
  | .transform step =>
    cases step <;> exact ⟨fun _ => rfl, fun _ => rfl, fun _ _ => rfl, fun _ _ => rfl⟩
  | .push _ | .pop _ | .set (.lineWidth _) | .set (.lineCap _) | .set (.lineJoin _)
  | .set (.miterLimit _) | .set (.clip _ _) | .set (.clipMask _ _) | .set (.alpha _)
  | .set (.blendMode _) | .mark (.stroke _) | .mark (.fill _ _) | .mark (.image _ _) =>
    exact ⟨fun _ => rfl, fun _ => rfl, fun _ _ => rfl, fun _ _ => rfl⟩

/-- Patterns are only added, and only at the end. -/
theorem prefix_patterns_after (t : Tables) (c : DrawnCommand) :
    t.patterns <+: (t.after c).patterns := by
  by_cases h : ∃ p, c = .set (.fillPattern p)
  · obtain ⟨p, rfl⟩ := h
    exact prefix_enter p.pattern t.patterns
  · have hfree : PatternFree c := patternFree fun p hp => h ⟨p, hp⟩
    exact (hfree.patterns_after t).symm ▸ List.prefix_refl t.patterns

theorem prefix_patterns_afterAll (t : Tables) (cs : List DrawnCommand) :
    t.patterns <+: (t.afterAll cs).patterns := by
  induction cs generalizing t with
  | nil => exact List.prefix_refl t.patterns
  | cons c cs ih => exact (prefix_patterns_after t c).trans (ih (t.after c))

/-- What a command does to the tables and to the body is the same if its pattern has been entered
    before. -/
theorem after_withPatterns_and_body_output_withPatterns (c : DrawnCommand)
    (h : (t.after c).patterns <+: final) :
    (t.withPatterns final).after c = (t.after c).withPatterns final ∧
      ((t.withPatterns final).output c).body = (t.output c).body := by
  by_cases hc : ∃ p, c = .set (.fillPattern p)
  · obtain ⟨p, rfl⟩ := hc
    have hp : p.pattern ∈ final := h.subset (mem_enter_self p.pattern t.patterns)
    refine ⟨?_, ?_⟩
    · simp only [after, enterPattern, withPatterns, enter_of_mem hp]
    · -- The pattern has the same index in the longer table.
      simp only [output, settingOutput, withPatterns, idxOf_eq_of_prefix_enter h]
      rfl
  · have hfree : PatternFree c := patternFree fun p hp => hc ⟨p, hp⟩
    exact ⟨hfree.after_withPatterns t final, hfree.body_output_withPatterns t final⟩

/-- With all patterns of the stream in the tables from the start, everything else in the tables
    becomes the same. -/
theorem afterAll_withPatterns (cs : List DrawnCommand)
    (h : (t.afterAll cs).patterns <+: final) :
    (t.withPatterns final).afterAll cs = (t.afterAll cs).withPatterns final := by
  induction cs generalizing t with
  | nil => rfl
  | cons c cs ih =>
    have hc := (prefix_patterns_afterAll (t.after c) cs).trans h
    obtain ⟨hafter, _⟩ := after_withPatterns_and_body_output_withPatterns c hc
    calc (t.withPatterns final).afterAll (c :: cs)
        = ((t.withPatterns final).after c).afterAll cs := rfl
      _ = ((t.after c).withPatterns final).afterAll cs := by rw [hafter]
      _ = (t.afterAll (c :: cs)).withPatterns final := ih h

/-- The body does not depend on how many patterns have been entered already, as the index of a
    pattern never changes. -/
theorem body_outputAll_withPatterns (cs : List DrawnCommand)
    (h : (t.afterAll cs).patterns <+: final) :
    ((t.withPatterns final).outputAll cs).body = (t.outputAll cs).body := by
  induction cs generalizing t with
  | nil => rfl
  | cons c cs ih =>
    have hc := (prefix_patterns_afterAll (t.after c) cs).trans h
    obtain ⟨hafter, hbody⟩ := after_withPatterns_and_body_output_withPatterns c hc
    calc ((t.withPatterns final).outputAll (c :: cs)).body
        = ((t.withPatterns final).output c).body ++
            (((t.withPatterns final).after c).outputAll cs).body := rfl
      _ = (t.output c).body ++ (((t.after c).withPatterns final).outputAll cs).body := by
          rw [hbody, hafter]
      _ = (t.outputAll (c :: cs)).body := by rw [ih h]; rfl

/-- If a stream adds no pattern, neither does its first command, nor the rest after it. -/
theorem patterns_eq_of_afterAll {c : DrawnCommand} {cs : List DrawnCommand}
    (h : (t.afterAll (c :: cs)).patterns = t.patterns) :
    (t.after c).patterns = t.patterns ∧
      ((t.after c).afterAll cs).patterns = (t.after c).patterns := by
  -- Each of the two tables is a prefix of the other.
  have hfirst := prefix_patterns_after t c
  have hrest : (t.after c).patterns <+: t.patterns := h ▸ prefix_patterns_afterAll (t.after c) cs
  have heq : (t.after c).patterns = t.patterns := hrest.eq_of_length_le hfirst.length_le
  exact ⟨heq, heq ▸ h⟩

/-! ## Streams -/

theorem afterAll_append (t : Tables) (first second : List DrawnCommand) :
    t.afterAll (first ++ second) = (t.afterAll first).afterAll second :=
  List.foldl_append

/-- The output of a stream continues that of its start, from the tables that are left there. -/
theorem outputAll_append (t : Tables) (first second : List DrawnCommand) :
    t.outputAll (first ++ second) =
      t.outputAll first ++ (t.afterAll first).outputAll second := by
  induction first generalizing t with
  | nil => rfl
  | cons c first ih =>
    have h := ih (t.after c)
    calc t.outputAll (c :: first ++ second)
        = t.output c ++ (t.after c).outputAll (first ++ second) := rfl
      _ = t.output c ++
            ((t.after c).outputAll first ++ ((t.after c).afterAll first).outputAll second) := by
          rw [h]
      _ = t.outputAll (c :: first) ++ (t.afterAll (c :: first)).outputAll second := by
          exact (Output.append_assoc _ _ _).symm

end Tables

/-! ## Declarations in the body -/

/-- The statement belongs to the declaration of a space, a colour, a path, a matrix or a
    gradient. -/
def Statement.IsDeclaration : Statement → Prop
  | .space _ | .patternAlpha | .color _ _ | .path _ | .extendPath _ _ | .transform _ _
  | .locations _ _ | .gradient _ _ => True
  | _ => False

namespace Tables

variable (t : Tables)

theorem isDeclaration_declareSpace (space : ColorSpace) :
    ∀ s ∈ t.declareSpace space, s.IsDeclaration := by
  rw [declareSpace]
  split
  · exact List.forall_mem_nil _
  · refine List.forall_mem_cons.2 ⟨trivial, ?_⟩
    split
    · exact List.forall_mem_singleton.2 trivial
    · exact List.forall_mem_nil _

/-- A colour may have to declare its space first. -/
theorem isDeclaration_declareColor (c : Color) : ∀ s ∈ t.declareColor c, s.IsDeclaration := by
  rw [declareColor]
  split
  · exact List.forall_mem_nil _
  · exact List.forall_mem_append.2
      ⟨t.isDeclaration_declareSpace c.space, List.forall_mem_singleton.2 trivial⟩

/-- All steps of a path belong to its declaration. -/
theorem isDeclaration_declarePath (p : Path) : ∀ s ∈ t.declarePath p, s.IsDeclaration := by
  rw [declarePath]
  split
  · exact List.forall_mem_nil _
  · exact List.forall_mem_cons.2 ⟨trivial, List.forall_mem_map.2 fun _ _ => trivial⟩

theorem isDeclaration_declareMatrix (m : Affine Literal) :
    ∀ s ∈ t.declareMatrix m, s.IsDeclaration := by
  rw [declareMatrix]
  split
  · exact List.forall_mem_nil _
  · exact List.forall_mem_singleton.2 trivial

/-- A gradient has a space and locations to declare before it. -/
theorem isDeclaration_declareGradient (g : Gradient) :
    ∀ s ∈ t.declareGradient g, s.IsDeclaration := by
  rw [declareGradient]
  split
  · exact List.forall_mem_nil _
  · exact List.forall_mem_append.2 ⟨t.isDeclaration_declareSpace .rgb,
      List.forall_mem_cons.2 ⟨trivial, List.forall_mem_singleton.2 trivial⟩⟩

end Tables

/-! ## Scopes and renderings -/

/-- A stream is drawn command by command. -/
theorem drawAll_eq_map (commands : Drawing resources) :
    drawAll commands = List.map drawCommand commands := by
  induction commands with
  | nil => rfl
  | cons c rest ih => exact congrArg (drawCommand c :: ·) ih

theorem pattern_drawPattern (p : Pattern resources) : (drawPattern p).pattern = p := by
  cases p
  rfl

/-- The callback of a pattern has the statements of its stream, rendered from empty tables. -/
theorem body_drawPattern (p : Pattern resources) :
    (drawPattern p).body = scope (drawAll p.contents) := by
  cases p
  rfl

theorem drawCommand_ne_fillPattern {c : DrawingCommand resources}
    (h : ∀ p, c ≠ .set (.fillPattern p)) (p : DrawnPattern) :
    drawCommand c ≠ .set (.fillPattern p) := by
  intro hp
  cases c with
  | set setting =>
    cases setting with
    | fillPattern q => exact h q rfl
    | _ => cases hp
  | _ => cases hp

theorem drawCommand_ne_clipMask {c : DrawingCommand resources}
    (h : ∀ m frame, c ≠ .set (.clipMask m frame)) (m : DrawnMask) (frame : Rect Literal) :
    drawCommand c ≠ .set (.clipMask m frame) := by
  intro hm
  cases c with
  | set setting =>
    cases setting with
    | clipMask mask frame => exact h mask frame rfl
    | _ => cases hm
  | _ => cases hm

/-- Drawing keeps the brackets of a stream where they are. -/
theorem keepsBrackets_drawCommand : KeepsBrackets drawCommand where
  opens c := by cases c <;> rfl
  closes c := by cases c <;> rfl

/-- Simplifying before the inner scopes are rendered or after makes no difference. -/
theorem scope_drawAll (commands : Drawing resources) :
    scope (drawAll commands) =
      (Tables.outputAll {} (drawAll (Simplifications.all.apply commands))).statements := by
  rw [scope, drawAll_eq_map, drawAll_eq_map, keepsBrackets_drawCommand.apply_map]

/-- Rendering several streams is to render all of their commands in one. -/
theorem foldl_render_after (t : Tables) (cs : List DrawnCommand)
    (renders : List (Drawing resources)) :
    renders.foldl Rendering.render ⟨t.afterAll cs, t.outputAll cs⟩ =
      ⟨t.afterAll (cs ++ drawAll renders.flatten),
        t.outputAll (cs ++ drawAll renders.flatten)⟩ := by
  induction renders generalizing cs with
  | nil => simp [drawAll]
  | cons commands renders ih =>
    have hrender : Rendering.render ⟨t.afterAll cs, t.outputAll cs⟩ commands =
        ⟨t.afterAll (cs ++ drawAll commands), t.outputAll (cs ++ drawAll commands)⟩ := by
      rw [Rendering.render, Tables.afterAll_append, Tables.outputAll_append]
    rw [List.foldl_cons, hrender, ih, List.flatten_cons]
    simp [drawAll_eq_map]

/-- Rendering streams one after the other is rendering them as one. -/
theorem foldl_render (renders : List (Drawing resources)) :
    renders.foldl Rendering.render {} =
      ⟨Tables.afterAll {} (drawAll renders.flatten),
        Tables.outputAll {} (drawAll renders.flatten)⟩ :=
  foldl_render_after {} [] renders

/-! ## Following a stream

What is to be shown of generated code mostly follows its statements: a relation between the tables
before some statements and those after them, with the commands that have been rendered in between.
If the relation holds of the statements of each command, it holds of those of a stream.
-/

section Following

/-- The relation can be followed from statements to statements. -/
structure Composes (T : Tables → List Statement → Drawing resources → Tables → Prop) : Prop where
  nil (t : Tables) : T t [] [] t
  append {t t' t'' : Tables} {ss ss' : List Statement} {cs cs' : Drawing resources} :
    T t ss cs t' → T t' ss' cs' t'' → T t (ss ++ ss') (cs ++ cs') t''

/-- The relation holds of what the command becomes: of the preamble, where only patterns have been
    declared, and of the body, once the pattern of the command has been entered. -/
structure Follows (T : Tables → List Statement → Drawing resources → Tables → Prop)
    (c : DrawingCommand resources) : Prop where
  preamble (t : Tables) :
    T { patterns := t.patterns } (t.output (drawCommand c)).preamble []
      { patterns := (t.after (drawCommand c)).patterns }
  body (t : Tables) (h : (t.after (drawCommand c)).patterns = t.patterns) :
    T t (t.output (drawCommand c)).body [c] (t.after (drawCommand c))

variable {T : Tables → List Statement → Drawing resources → Tables → Prop}
  {commands : Drawing resources}

/-- Only commands that set a pattern have a preamble. -/
theorem Composes.follows (hT : Composes T) (c : DrawingCommand resources)
    (hpattern : ∀ p, c = .set (.fillPattern p) → ∀ t : Tables,
      T { patterns := t.patterns } (t.declarePattern (drawPattern p)) []
        { patterns := enter p t.patterns })
    (hbody : ∀ t : Tables, (t.after (drawCommand c)).patterns = t.patterns →
      T t (t.output (drawCommand c)).body [c] (t.after (drawCommand c))) : Follows T c where
  body := hbody
  preamble t := by
    by_cases hc : ∃ p, c = .set (.fillPattern p)
    · obtain ⟨⟨tile, contents⟩, rfl⟩ := hc
      exact hpattern (.of tile contents) rfl t
    · have hfree : Tables.PatternFree (drawCommand c) :=
        Tables.patternFree (drawCommand_ne_fillPattern fun p hp => hc ⟨p, hp⟩)
      rw [hfree.preamble_output, hfree.patterns_after]
      exact hT.nil _

/-- The relation holds of commands with a property, and with that property to any depth inside, if
    it does whenever it holds of the simplified stream inside the command. -/
theorem follows_of_everywhere {P : DrawingCommand resources → Prop}
    (step : ∀ c, P c →
      (∀ d ∈ Simplifications.all.apply (DrawingCommand.inner c), Follows T d) → Follows T c)
    {c : DrawingCommand resources} (h : DrawingCommand.Everywhere P c) : Follows T c := by
  induction c using DrawingCommand.nested_induction with
  | step c ih =>
    refine step c h.here fun d hd => ?_
    have hmem := (Simplifications.apply_sublist _ _).mem hd
    exact ih d hmem (h.inside d hmem)

/-- Along the preamble, the tables have patterns only. -/
theorem Composes.preamble_outputAll (hT : Composes T) (h : ∀ c ∈ commands, Follows T c)
    (t : Tables) :
    T { patterns := t.patterns } (t.outputAll (drawAll commands)).preamble []
      { patterns := (t.afterAll (drawAll commands)).patterns } := by
  induction commands generalizing t with
  | nil => exact hT.nil _
  | cons c rest ih =>
    exact hT.append ((h c List.mem_cons_self).preamble t)
      (ih (fun d hd => h d (List.mem_cons_of_mem c hd)) (t.after (drawCommand c)))

/-- Along the body, all patterns of the stream are in the tables from the start. -/
theorem Composes.body_outputAll (hT : Composes T) (h : ∀ c ∈ commands, Follows T c) (t : Tables)
    (ht : (t.afterAll (drawAll commands)).patterns = t.patterns) :
    T t (t.outputAll (drawAll commands)).body commands (t.afterAll (drawAll commands)) := by
  induction commands generalizing t with
  | nil => exact hT.nil t
  | cons c rest ih =>
    obtain ⟨hc, hrest⟩ := Tables.patterns_eq_of_afterAll ht
    exact hT.append ((h c List.mem_cons_self).body t hc)
      (ih (fun d hd => h d (List.mem_cons_of_mem c hd)) (t.after (drawCommand c)) hrest)

/-- From empty tables, the preamble comes first, and after it the body has the patterns of all
    commands. -/
theorem Composes.output (hT : Composes T) (h : ∀ c ∈ commands, Follows T c) :
    T {} (Tables.outputAll {} (drawAll commands)).preamble []
        { patterns := (Tables.afterAll {} (drawAll commands)).patterns } ∧
      T { patterns := (Tables.afterAll {} (drawAll commands)).patterns }
        (Tables.outputAll {} (drawAll commands)).body commands
        (Tables.afterAll {} (drawAll commands)) := by
  refine ⟨hT.preamble_outputAll h {}, ?_⟩
  -- The body was rendered while the patterns were being entered, and is followed after that.
  have hfinal := List.prefix_refl (Tables.afterAll {} (drawAll commands)).patterns
  have hafter := Tables.afterAll_withPatterns (drawAll commands) hfinal
  have hbody := hT.body_outputAll h
    (Tables.withPatterns {} (Tables.afterAll {} (drawAll commands)).patterns) (by rw [hafter]; rfl)
  rwa [Tables.body_outputAll_withPatterns (drawAll commands) hfinal, hafter] at hbody

end Following

end SceneCode.Swift
