import SceneCode.Proofs.Opacity
import SceneCode.Proofs.Simplify

/-!
# Layers that erase

When a layer is closed it is composited, by the blend mode, the alpha and the clips that were in
force when it was opened. In the normal blend mode nothing is seen of a layer in which nothing is
drawn. In every other mode it is seen: it erases what is below it. So these layers belong to what a
stream draws (`Layering.compositing`).

A bracket with nothing inside is removed whatever the blend mode is. If it is a layer that erases,
this changes the drawing, and not otherwise: a stream keeps what it draws exactly if every layer
that is removed was opened in the normal blend mode. The layers that are removed are those that hold
nothing but brackets (`Hollow`).

That they are all that matters is shown for all ways of recording empty layers (`Layering`), by
induction on the grammar of balanced streams (`Balanced.compared`). If no layer is lost then the
events stay the same. To see that otherwise they do not, layers are counted (`allLayers`): no other
event can make up for a layer that is lost, because nothing is ever added.

* `visible_apply_eq_iff`: simplifying a balanced stream keeps all that is visible if and only if no
  layer that is removed was opened in another blend mode than the normal one;
* `visible_apply_eraser`: so it does not always do that.
-/

namespace SceneCode

section Streams

variable {R : Resources} {Mask Pattern : Type}

/-! ## Counting layers -/

mutual

/-- The number of layers in an event. -/
def Event.layers : Event R Mask Pattern → Nat
  | .mark _ _ => 0
  | .layer _ contents => allLayers contents + 1
termination_by structural e => e

/-- The number of layers in some events, one inside the other included. -/
def allLayers : List (Event R Mask Pattern) → Nat
  | [] => 0
  | e :: rest => e.layers + allLayers rest
termination_by structural es => es

end

theorem allLayers_append (first second : List (Event R Mask Pattern)) :
    allLayers (first ++ second) = allLayers first + allLayers second := by
  induction first with
  | nil => rw [List.nil_append, allLayers, Nat.zero_add]
  | cons e rest ih => rw [List.cons_append, allLayers, allLayers, ih, Nat.add_assoc]

variable (l : Layering R Mask Pattern) {s : DrawingState R Mask Pattern}
  {events events' : List (Event R Mask Pattern)}

/-- A layer that something has been drawn in is counted. -/
theorem allLayers_enclose_layer (h : events ≠ []) :
    allLayers (l.enclose s events .layer) = allLayers events + 1 := by
  rw [Layering.enclose, if_neg (by simp [h])]
  rfl

theorem allLayers_enclose_layer_le :
    allLayers (l.enclose s events .layer) ≤ allLayers events + 1 := by
  rw [Layering.enclose]
  split
  · exact Nat.zero_le _
  · exact Nat.le_refl _

/-- Where there are more layers inside, there are more of them in all. -/
theorem allLayers_enclose_lt (b : Bracket) (h : allLayers events < allLayers events') :
    allLayers (l.enclose s events b) < allLayers (l.enclose s events' b) := by
  cases b with
  | state => exact h
  | layer =>
    have hne : events' ≠ [] := by
      rintro rfl
      exact absurd h (Nat.not_lt_zero _)
    rw [allLayers_enclose_layer l hne]
    exact Nat.lt_of_le_of_lt (allLayers_enclose_layer_le l) (Nat.succ_lt_succ h)

/-! ## Lost layers -/

/-- There is nothing but brackets in the stream, and they are all closed. -/
structure Hollow (commands : List (Command R Mask Pattern)) : Prop where
  balanced : Balanced commands
  brackets : ∀ c ∈ commands, c.IsBracket

/-- Somewhere in the stream, a layer with nothing but brackets in it is opened in a state in which
    an empty layer is recorded. -/
def LosesLayer (r : Replay R Mask Pattern) (commands : List (Command R Mask Pattern)) : Prop :=
  ∃ before inside after, commands = before ++ (bracketed .layer inside ++ after) ∧
    Hollow inside ∧ l.keepsEmpty (r.run l before).state = true

namespace LosesLayer

variable {l} {r : Replay R Mask Pattern} {first second commands : List (Command R Mask Pattern)}
  {c : Command R Mask Pattern} {b : Bracket}

theorem cons (h : LosesLayer l (r.step l c) commands) : LosesLayer l r (c :: commands) := by
  obtain ⟨before, inside, after, rfl, hinside, hkeeps⟩ := h
  exact ⟨c :: before, inside, after, rfl, hinside, hkeeps⟩

/-- A layer that is lost stays lost, whatever comes after it. -/
theorem append_left (h : LosesLayer l r first) : LosesLayer l r (first ++ second) := by
  obtain ⟨before, inside, after, rfl, hinside, hkeeps⟩ := h
  exact ⟨before, inside, after ++ second, by simp only [List.append_assoc], hinside, hkeeps⟩

/-- A layer may be lost after other commands. -/
theorem append_right (h : LosesLayer l (r.run l first) second) :
    LosesLayer l r (first ++ second) := by
  induction first generalizing r with
  | nil => exact h
  | cons c first ih => exact cons (ih h)

/-- A layer is lost at the start of the stream, or after it. -/
theorem cons_cases (h : LosesLayer l r (c :: commands)) :
    (∃ inside after, c = .push .layer ∧ commands = inside ++ .pop .layer :: after ∧
      Hollow inside ∧ l.keepsEmpty r.state = true) ∨ LosesLayer l (r.step l c) commands := by
  obtain ⟨before, inside, after, hcommands, hinside, hkeeps⟩ := h
  cases before with
  | nil =>
    obtain ⟨rfl, htail⟩ := List.cons.inj hcommands
    exact .inl ⟨inside, after, rfl, by simpa using htail, hinside, hkeeps⟩
  | cons d before =>
    obtain ⟨rfl, htail⟩ := List.cons.inj hcommands
    exact .inr ⟨before, inside, after, htail, hinside, hkeeps⟩

/-- A layer is lost in one of two streams, if the first one is balanced. -/
theorem of_append (hfirst : Balanced first) (h : LosesLayer l r (first ++ second)) :
    LosesLayer l r first ∨ LosesLayer l (r.run l first) second := by
  obtain ⟨before, inside, after, hcommands, hinside, hkeeps⟩ := h
  obtain ⟨t, rfl, hsecond⟩ | ⟨t, rfl, hlayer⟩ := List.append_eq_append_iff.1 hcommands
  · rw [Replay.run_append] at hkeeps
    exact .inr ⟨t, inside, after, hsecond, hinside, hkeeps⟩
  · cases t with
    | nil =>
      rw [List.append_nil]
      exact .inr ⟨[], inside, after, hlayer.symm, hinside, hkeeps⟩
    | cons c t =>
      -- The layer is opened in the first stream, so it is also closed in it.
      obtain ⟨rfl, htail⟩ := List.cons.inj hlayer
      obtain ⟨inside', rest, rfl, hinside'⟩ := hfirst.exists_bracketed
      simp only [List.append_eq, List.append_assoc] at htail
      obtain ⟨rfl, _, _⟩ := hinside.balanced.append_pop_inj hinside' htail
      refine .inl ⟨before, inside, rest, ?_, hinside, hkeeps⟩
      rw [bracketed, List.cons_append, List.append_assoc]
      rfl

theorem two_le_length (h : LosesLayer l r commands) : 2 ≤ commands.length := by
  obtain ⟨before, inside, after, rfl, -, -⟩ := h
  simp only [bracketed, List.length_append, List.length_cons]
  omega

end LosesLayer

/-- The layer that is lost in a bracket is the bracket itself, or it is inside. -/
theorem losesLayer_bracketed_iff {r : Replay R Mask Pattern} {b : Bracket}
    {commands : List (Command R Mask Pattern)} (h : Balanced commands) :
    LosesLayer l r (bracketed b commands) ↔
      (b = .layer ∧ Hollow commands ∧ l.keepsEmpty r.state = true) ∨
        LosesLayer l (r.step l (.push b)) commands := by
  constructor
  · intro hloses
    obtain ⟨inside, after, hb, hcommands, hinside, hkeeps⟩ | hinside := hloses.cons_cases
    · cases hb
      obtain ⟨rfl, _, _⟩ := h.append_pop_inj hinside.balanced hcommands
      exact .inl ⟨rfl, hinside, hkeeps⟩
    · obtain hinside | hpop := hinside.of_append h
      · exact .inr hinside
      · exact absurd hpop.two_le_length (by simp)
  · rintro (⟨rfl, hhollow, hkeeps⟩ | hinside)
    · exact ⟨[], commands, [], (List.append_nil _).symm, hhollow, hkeeps⟩
    · exact .cons hinside.append_left

/-! ## Comparing what is drawn -/

/-- How a stream draws once the empty brackets are removed: it leads to the same state, with the
    same events if no layer is lost, and with fewer layers if one is. -/
structure Compared (r : Replay R Mask Pattern) (commands : List (Command R Mask Pattern)) :
    Prop where
  state_eq : (replay l r.state (dropEmptyBrackets commands)).state =
    (replay l r.state commands).state
  events_eq : ¬ LosesLayer l r commands →
    (replay l r.state (dropEmptyBrackets commands)).events = (replay l r.state commands).events
  layers_lt : LosesLayer l r commands →
    allLayers (replay l r.state (dropEmptyBrackets commands)).events <
      allLayers (replay l r.state commands).events

namespace Compared

variable {l} {r : Replay R Mask Pattern} {first second commands : List (Command R Mask Pattern)}

/-- Simplifying never adds a layer. -/
theorem layers_le (h : Compared l r commands) :
    allLayers (replay l r.state (dropEmptyBrackets commands)).events ≤
      allLayers (replay l r.state commands).events := by
  by_cases hloses : LosesLayer l r commands
  · exact Nat.le_of_lt (h.layers_lt hloses)
  · exact Nat.le_of_eq (congrArg allLayers (h.events_eq hloses))

/-- A single command that is no bracket stays what it is. -/
theorem other {c : Command R Mask Pattern} (ho : c.opens? = none) : Compared l r [c] := by
  have hkept : dropEmptyBrackets [c] = [c] :=
    dropEmptyBrackets_of_opens?_eq_none (by simpa using ho)
  constructor
  · rw [hkept]
  · rw [hkept]
    exact fun _ => rfl
  · exact fun hloses => absurd hloses.two_le_length (by simp)

/-- Two balanced streams draw so together if each of them does. -/
theorem append (hfirst : Balanced first) (hsecond : Balanced second) (h : Compared l r first)
    (h' : Compared l (r.run l first) second) : Compared l r (first ++ second) := by
  have hstate : (r.run l first).state = (replay l r.state first).state := by
    rw [hfirst.run_eq r.state r.opened r.events]
  have hdropped := hfirst.dropEmptyBrackets.replay_append hsecond.dropEmptyBrackets
    (l := l) r.state
  rw [← hfirst.dropEmptyBrackets_append, h.state_eq, ← hstate] at hdropped
  have hcommands := hfirst.replay_append hsecond (l := l) r.state
  rw [← hstate] at hcommands
  constructor
  · rw [hdropped, hcommands]
    exact h'.state_eq
  · intro hloses
    rw [hdropped, hcommands, h.events_eq fun hl => hloses hl.append_left,
      h'.events_eq fun hl => hloses hl.append_right]
  · intro hloses
    simp only [hdropped, hcommands, allLayers_append]
    obtain hl | hl := hloses.of_append hfirst
    · exact Nat.add_lt_add_of_lt_of_le (h.layers_lt hl) h'.layers_le
    · exact Nat.add_lt_add_of_le_of_lt h.layers_le (h'.layers_lt hl)

/-- A bracket goes if there is nothing but brackets in it. -/
theorem bracketed_of_eq_nil {b : Bracket} (hcommands : Balanced commands)
    (h : Compared l (r.step l (.push b)) commands) (hnil : dropEmptyBrackets commands = []) :
    Compared l r (bracketed b commands) := by
  have hhollow : Hollow commands := ⟨hcommands, hcommands.dropEmptyBrackets_eq_nil_iff.1 hnil⟩
  have hdropped : dropEmptyBrackets (bracketed b commands) = [] := by
    rw [hcommands.dropEmptyBrackets_bracketed, hnil]
    rfl
  have hreplay := hcommands.replay_bracketed (l := l) b r.state
  obtain ⟨-, hevents, hlayers⟩ := h
  rw [hnil, Replay.step] at hevents hlayers
  constructor
  · rw [hdropped, hreplay]
    rfl
  · intro hloses
    rw [losesLayer_bracketed_iff l hcommands, not_or] at hloses
    obtain ⟨hself, hinside⟩ := hloses
    rw [hdropped, hreplay, ← hevents hinside]
    cases b with
    | state => rfl
    | layer =>
      have hkeeps : l.keepsEmpty r.state = false :=
        Bool.eq_false_iff.2 fun hkeeps => hself ⟨rfl, hhollow, hkeeps⟩
      simp [Layering.enclose, replay, hkeeps]
  · intro hloses
    rw [hdropped, hreplay]
    obtain ⟨rfl, _, hkeeps⟩ | hinside := (losesLayer_bracketed_iff l hcommands).1 hloses
    · simp [Layering.enclose, hkeeps, replay, allLayers, Event.layers]
    · exact Nat.lt_of_le_of_lt (Nat.zero_le _) (allLayers_enclose_lt l b (hlayers hinside))

/-- A bracket stays if there is something else in it. -/
theorem bracketed_of_ne_nil {b : Bracket} (hcommands : Balanced commands)
    (h : Compared l (r.step l (.push b)) commands) (hne : dropEmptyBrackets commands ≠ []) :
    Compared l r (bracketed b commands) := by
  have hdropped : dropEmptyBrackets (bracketed b commands) =
      bracketed b (dropEmptyBrackets commands) := by
    rw [hcommands.dropEmptyBrackets_bracketed, if_neg (by simpa using hne)]
  have hloses_iff :
      LosesLayer l r (bracketed b commands) ↔ LosesLayer l (r.step l (.push b)) commands := by
    rw [losesLayer_bracketed_iff l hcommands, or_iff_right]
    exact fun hself => hne (hcommands.dropEmptyBrackets_eq_nil_iff.2 hself.2.1.brackets)
  have hreplay := hcommands.replay_bracketed (l := l) b r.state
  have hreplay' := hcommands.dropEmptyBrackets.replay_bracketed (l := l) b r.state
  constructor
  · rw [hdropped, hreplay, hreplay']
  · intro hloses
    rw [hdropped, hreplay, hreplay']
    exact congrArg (l.enclose r.state · b) (h.events_eq fun hl => hloses (hloses_iff.2 hl))
  · intro hloses
    rw [hdropped, hreplay, hreplay']
    exact allLayers_enclose_lt l b (h.layers_lt (hloses_iff.1 hloses))

/-- A bracket goes only if nothing is left inside it. -/
theorem bracketed {b : Bracket} (hcommands : Balanced commands)
    (h : Compared l (r.step l (.push b)) commands) : Compared l r (bracketed b commands) := by
  by_cases hnil : dropEmptyBrackets commands = []
  · exact h.bracketed_of_eq_nil hcommands hnil
  · exact h.bracketed_of_ne_nil hcommands hnil

end Compared

/-- Every balanced stream draws so, by induction on its brackets. -/
theorem Balanced.compared {commands : List (Command R Mask Pattern)} (h : Balanced commands)
    (r : Replay R Mask Pattern) : Compared l r commands := by
  induction h generalizing r with
  | nil => exact ⟨rfl, fun _ => rfl, fun hloses => absurd hloses.two_le_length (by simp)⟩
  | @other c rest ho hc hrest ih =>
    exact (Compared.other ho).append (.other ho hc .nil) hrest (ih _)
  | @bracket b inside rest hinside hrest ihInside ihRest =>
    have hbracket : Compared l r (bracketed b inside) := (ihInside _).bracketed hinside
    have happend := hbracket.append hinside.wrap hrest (ihRest _)
    rwa [List.cons_append, List.append_assoc, List.singleton_append] at happend

/-- Simplifying a balanced stream keeps its events if and only if no layer is lost. -/
theorem Balanced.events_apply_eq_iff {commands : List (Command R Mask Pattern)}
    (h : Balanced commands) (use : Simplifications) (s : DrawingState R Mask Pattern) :
    (replay l s (use.apply commands)).events = (replay l s commands).events ↔
      (use.emptyBrackets = true → ¬ LosesLayer l { state := s } commands) := by
  have hdrop : (replay l s (SceneCode.dropEmptyBrackets commands)).events =
        (replay l s commands).events ↔
      ¬ LosesLayer l { state := s } commands := by
    have hcompared := h.compared l { state := s }
    refine ⟨fun hevents hloses => ?_, hcompared.events_eq⟩
    exact absurd (congrArg allLayers hevents) (Nat.ne_of_lt (hcompared.layers_lt hloses))
  obtain ⟨empty, outer⟩ := use
  cases empty <;> cases outer <;>
    simp [Simplifications.apply, h.events_dropOuterBracket,
      h.dropEmptyBrackets.events_dropOuterBracket, hdrop]

end Streams

/-! ## Scenes -/

/-- A layer of a scene starts opaque, and blends as usual. If it is empty it is seen nevertheless,
    unless it was opened in the normal blend mode. -/
def Layering.compositing : Layering .scene (Mask .scene) (Pattern .scene) where
  alpha := (1 : Single)
  blendMode := BlendMode.normal
  keepsEmpty s := s.blendMode ≠ BlendMode.normal

/-- All that is visible of a stream that is drawn from a state. -/
def visible (s : SceneState) (commands : Drawing .scene) : List SceneEvent :=
  (replay .compositing s commands).events

/-- Simplifying a balanced stream keeps all that is visible if and only if every layer that holds
    nothing but brackets is opened in the normal blend mode, or empty brackets stay. -/
theorem visible_apply_eq_iff (use : Simplifications) (commands : Drawing .scene)
    (h : checkBalance commands = .ok ()) (s : SceneState) :
    visible s (use.apply commands) = visible s commands ↔
      (use.emptyBrackets = true → ∀ before inside after,
        commands = before ++ (bracketed .layer inside ++ after) → Hollow inside →
          (replay .compositing s before).state.blendMode = BlendMode.normal) := by
  rw [visible, visible, (checkBalance_eq_ok_iff.1 h).events_apply_eq_iff]
  refine imp_congr_right fun _ => ⟨fun hkept before inside after hcommands hinside => ?_, ?_⟩
  · refine Decidable.byContradiction fun hmode => ?_
    exact hkept ⟨before, inside, after, hcommands, hinside, decide_eq_true hmode⟩
  · rintro hnormal ⟨before, inside, after, hcommands, hinside, hkeeps⟩
    exact of_decide_eq_true hkeeps (hnormal before inside after hcommands hinside)

/-- In the faded outline nothing sets a blend mode, so its empty layer can go. -/
theorem visible_apply_eq_iff_fadedOutline :
    checkBalance fadedOutline = .ok () ∧
      ∀ before inside after, fadedOutline = before ++ (bracketed .layer inside ++ after) →
        Hollow inside →
          (replay .compositing .fresh before).state.blendMode = BlendMode.normal :=
  ⟨rfl, (visible_apply_eq_iff .all fadedOutline rfl .fresh).1 rfl rfl⟩

/-- An isolated node with nothing in it, drawn in the mode that replaces what is below. -/
def eraser : Node := (Node.group []).isolate.withBlendMode .copy

/-- The eraser is an empty layer, and all that it does is lost with it. -/
theorem visible_apply_eraser :
    checkBalance (eraser.commands true) = .ok () ∧
      DrawingState.fresh.blendMode = BlendMode.normal ∧
      visible .fresh (eraser.commands true) =
        [.layer { DrawingState.fresh with blendMode := BlendMode.copy } []] ∧
      visible .fresh ((⟨true, false⟩ : Simplifications).apply (eraser.commands true)) = [] ∧
      visible .fresh ((⟨true, false⟩ : Simplifications).apply (eraser.commands true)) ≠
        visible .fresh (eraser.commands true) :=
  ⟨rfl, rfl, rfl, rfl, fun heq => List.cons_ne_nil _ _ heq.symm⟩

end SceneCode
