import SceneCode.Command.Lowering
import SceneCode.Proofs.Balance

/-!
# Replaying streams

A stream is replayed on a machine with a drawing state and a stack (`Replay`). Both kinds of
brackets save the state when they are opened and restore it when they are closed. A layer also
collects what is drawn inside it, and it is composited as a whole when it is closed, with the
state it was opened in: so inside a layer the alpha and the blend mode start afresh.

What comes out is a forest of events (`Event`), in the order of the stream: every mark with the
state it is made in, grouped by layers, every layer with the state it is opened in. In what state
a layer starts, and which layers are recorded though nothing is drawn in them, is left open
(`Layering`).

* `Balanced.run_eq`: a balanced stream does not look at what is on the stack, nor at what was
  drawn before. It leaves the stack as it is, and its events come after those before it.
-/

namespace SceneCode

/-! ## The drawing state -/

/-- What areas are filled with. -/
inductive FillSource (R : Resources) (Pattern : Type)
  | color (color : R.Color)
  | pattern (pattern : Pattern)

/-- What drawing is clipped to. -/
inductive ClipSource (R : Resources) (Mask : Type)
  | path (path : R.Path) (rule : R.FillRule)
  | mask (mask : Mask) (frame : R.Rect)

/-- A clip, with the transformations in force when it was set. -/
structure Clipping (R : Resources) (Mask : Type) where
  source : ClipSource R Mask
  transforms : List (Transform R.Scalar R.Matrix)

/-- The drawing state. Transformations and clips add up, the outermost first; everything else is
    replaced when it is set. -/
structure DrawingState (R : Resources) (Mask Pattern : Type) where
  transforms : List (Transform R.Scalar R.Matrix)
  clips : List (Clipping R Mask)
  fill : FillSource R Pattern
  stroke : R.Color
  lineWidth : R.Scalar
  lineCap : R.LineCap
  lineJoin : R.LineJoin
  miterLimit : R.Scalar
  alpha : R.Scalar
  blendMode : R.BlendMode

/-- What is drawn. -/
inductive Event (R : Resources) (Mask Pattern : Type)
  /-- A mark, and the state it is made in. -/
  | mark (mark : Mark R) (state : DrawingState R Mask Pattern)
  /-- A layer, the state it is opened in, and what is drawn inside it. -/
  | layer (state : DrawingState R Mask Pattern) (contents : List (Event R Mask Pattern))

/-- How layers are treated. -/
structure Layering (R : Resources) (Mask Pattern : Type) where
  /-- The alpha at the start of a layer. -/
  alpha : R.Scalar
  /-- The blend mode at the start of a layer. -/
  blendMode : R.BlendMode
  /-- Whether a layer that holds no event is recorded, by the state it is opened in. -/
  keepsEmpty : DrawingState R Mask Pattern → Bool

variable {R : Resources} {Mask Pattern : Type}

/-- Layers that hold no event are left out. -/
def Layering.paintedOnly (alpha : R.Scalar) (blendMode : R.BlendMode) :
    Layering R Mask Pattern where
  alpha
  blendMode
  keepsEmpty _ := false

namespace DrawingState

/-- The state after a further step of transformation. -/
def transform (s : DrawingState R Mask Pattern) (step : Transform R.Scalar R.Matrix) :
    DrawingState R Mask Pattern :=
  { s with transforms := s.transforms ++ [step] }

/-- The state clipped further. -/
def clip (s : DrawingState R Mask Pattern) (source : ClipSource R Mask) :
    DrawingState R Mask Pattern :=
  { s with clips := s.clips ++ [⟨source, s.transforms⟩] }

/-- The state after a setting. -/
def set (s : DrawingState R Mask Pattern) : Setting R Mask Pattern → DrawingState R Mask Pattern
  | .fill color => { s with fill := .color color }
  | .fillPattern pattern => { s with fill := .pattern pattern }
  | .stroke color => { s with stroke := color }
  | .lineWidth width => { s with lineWidth := width }
  | .lineCap cap => { s with lineCap := cap }
  | .lineJoin join => { s with lineJoin := join }
  | .miterLimit limit => { s with miterLimit := limit }
  | .clip path rule => s.clip (.path path rule)
  | .clipMask mask frame => s.clip (.mask mask frame)
  | .alpha alpha => { s with alpha }
  | .blendMode mode => { s with blendMode := mode }

end DrawingState

namespace Layering

variable (l : Layering R Mask Pattern)

/-- The state at the start of a bracket that is opened in some state. -/
def inside (s : DrawingState R Mask Pattern) : Bracket → DrawingState R Mask Pattern
  | .state => s
  | .layer => { s with alpha := l.alpha, blendMode := l.blendMode }

/-- The events of a bracket that is opened in some state, by those inside it. -/
def enclose (s : DrawingState R Mask Pattern) (contents : List (Event R Mask Pattern)) :
    Bracket → List (Event R Mask Pattern)
  | .state => contents
  | .layer => if contents.isEmpty && !l.keepsEmpty s then [] else [.layer s contents]

end Layering

/-! ## The machine -/

/-- A bracket that is open: its kind, the state it was opened in, and the events before it,
    since the bracket around it was opened. -/
structure OpenBracket (R : Resources) (Mask Pattern : Type) where
  bracket : Bracket
  state : DrawingState R Mask Pattern
  events : List (Event R Mask Pattern)

/-- The machine: the drawing state, the open brackets, the innermost first, and the events since
    the innermost one was opened. -/
structure Replay (R : Resources) (Mask Pattern : Type) where
  state : DrawingState R Mask Pattern
  opened : List (OpenBracket R Mask Pattern) := []
  events : List (Event R Mask Pattern) := []

namespace Replay

variable (l : Layering R Mask Pattern)

/-- Closes the innermost bracket; of which kind it is, only the stack says. -/
def close (r : Replay R Mask Pattern) : Replay R Mask Pattern :=
  match r.opened with
  | [] => r
  | b :: opened => ⟨b.state, opened, b.events ++ l.enclose b.state r.events b.bracket⟩

/-- Carries out a command. -/
def step (r : Replay R Mask Pattern) : Command R Mask Pattern → Replay R Mask Pattern
  | .push bracket => ⟨l.inside r.state bracket, ⟨bracket, r.state, r.events⟩ :: r.opened, []⟩
  | .pop _ => r.close l
  | .transform step => { r with state := r.state.transform step }
  | .set setting => { r with state := r.state.set setting }
  | .mark mark => { r with events := r.events ++ [.mark mark r.state] }

/-- Carries out the commands of a stream, one after the other. -/
def run (r : Replay R Mask Pattern) (commands : List (Command R Mask Pattern)) :
    Replay R Mask Pattern :=
  commands.foldl (step l) r

end Replay

/-- Replays a stream from a state, on an empty stack. -/
def replay (l : Layering R Mask Pattern) (s : DrawingState R Mask Pattern)
    (commands : List (Command R Mask Pattern)) : Replay R Mask Pattern :=
  ({ state := s } : Replay R Mask Pattern).run l commands

/-! ## Runs -/

namespace Replay

variable {l : Layering R Mask Pattern} (r : Replay R Mask Pattern)

@[simp]
theorem run_nil : r.run l [] = r := rfl

@[simp]
theorem run_cons (c : Command R Mask Pattern) (commands : List (Command R Mask Pattern)) :
    r.run l (c :: commands) = (r.step l c).run l commands := rfl

/-- Commands are replayed one after the other. -/
@[simp]
theorem run_append (first second : List (Command R Mask Pattern)) :
    r.run l (first ++ second) = (r.run l first).run l second :=
  List.foldl_append

/-- Opening a bracket and closing it at once changes nothing, if no empty layer is recorded; the
    kinds of the two commands need not even agree. -/
theorem step_push_pop (h : ∀ s, l.keepsEmpty s = false) (opening closing : Bracket) :
    (r.step l (.push opening)).step l (.pop closing) = r := by
  cases opening <;> simp [step, close, Layering.enclose, h]

/-- A bracket restores the state, if the commands inside it leave the stack as they find it. -/
theorem run_bracketed {s t : DrawingState R Mask Pattern}
    {opened : List (OpenBracket R Mask Pattern)} {events new : List (Event R Mask Pattern)}
    {bracket : Bracket} {commands : List (Command R Mask Pattern)}
    (h : run l ⟨l.inside s bracket, ⟨bracket, s, events⟩ :: opened, []⟩ commands =
      ⟨t, ⟨bracket, s, events⟩ :: opened, new⟩) :
    run l ⟨s, opened, events⟩ (bracketed bracket commands) =
      ⟨s, opened, events ++ l.enclose s new bracket⟩ := by
  rw [bracketed, run_cons, step, run_append, h]
  rfl

end Replay

/-- What a balanced stream does depends on the state only: it leads to a state and adds events,
    on every stack and after all events. -/
theorem Balanced.exists_run_eq {l : Layering R Mask Pattern}
    {commands : List (Command R Mask Pattern)} (h : Balanced commands)
    (s : DrawingState R Mask Pattern) :
    ∃ t new, ∀ opened events, Replay.run l ⟨s, opened, events⟩ commands =
      ⟨t, opened, events ++ new⟩ := by
  induction h generalizing s with
  | nil => exact ⟨s, [], fun _ _ => by rw [Replay.run_nil, List.append_nil]⟩
  | @other c rest ho hc _ ih =>
    cases c with
    | push b => cases ho
    | pop b => cases hc
    | transform step => exact ih (s.transform step)
    | set setting => exact ih (s.set setting)
    | mark mark =>
      obtain ⟨t, new, hrun⟩ := ih s
      refine ⟨t, .mark mark s :: new, fun opened events => ?_⟩
      rw [Replay.run_cons, Replay.step, hrun, List.append_assoc, List.singleton_append]
  | @bracket b inside rest _ _ ihInside ihRest =>
    -- The inside runs with the bracket on the stack, and closing it restores the state.
    obtain ⟨t, new, hInside⟩ := ihInside (l.inside s b)
    obtain ⟨u, newer, hRest⟩ := ihRest s
    refine ⟨u, l.enclose s new b ++ newer, fun opened events => ?_⟩
    rw [Replay.run_cons, Replay.run_append, Replay.run_cons, Replay.step, hInside, Replay.step,
      Replay.close, hRest, List.nil_append, List.append_assoc]

theorem Balanced.run_eq {l : Layering R Mask Pattern} {commands : List (Command R Mask Pattern)}
    (h : Balanced commands) (s : DrawingState R Mask Pattern)
    (opened : List (OpenBracket R Mask Pattern)) (events : List (Event R Mask Pattern)) :
    Replay.run l ⟨s, opened, events⟩ commands =
      ⟨(replay l s commands).state, opened, events ++ (replay l s commands).events⟩ := by
  obtain ⟨t, new, hrun⟩ := h.exists_run_eq (l := l) s
  rw [replay, hrun, hrun, List.nil_append]

/-- Balanced streams draw one after the other. -/
theorem Balanced.replay_append {l : Layering R Mask Pattern}
    {first second : List (Command R Mask Pattern)} (h : Balanced first) (h' : Balanced second)
    (s : DrawingState R Mask Pattern) :
    replay l s (first ++ second) =
      ⟨(replay l (replay l s first).state second).state, [],
        (replay l s first).events ++ (replay l (replay l s first).state second).events⟩ := by
  rw [replay, Replay.run_append, h.run_eq, h'.run_eq, List.nil_append]

/-- A bracket around a balanced stream encloses what the stream draws, and leaves the state. -/
theorem Balanced.replay_bracketed {l : Layering R Mask Pattern}
    {commands : List (Command R Mask Pattern)} (h : Balanced commands) (b : Bracket)
    (s : DrawingState R Mask Pattern) :
    replay l s (bracketed b commands) =
      ⟨s, [], l.enclose s (replay l (l.inside s b) commands).events b⟩ :=
  Replay.run_bracketed (h.run_eq _ _ _)

end SceneCode
