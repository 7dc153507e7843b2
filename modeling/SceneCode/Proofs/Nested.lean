import SceneCode.Command.Nested

/-!
# Induction over nested streams

The stream that stands inside a command is that of its mask or of its pattern
(`DrawingCommand.inner`); most commands have none. A command is larger than all those inside it,
so what passes from them to the command holds of every command (`DrawingCommand.nested_induction`).
-/

namespace SceneCode

variable {R : Resources}

/-- The stream inside a setting. -/
def DrawingSetting.inner : DrawingSetting R → Drawing R
  | .fillPattern pattern => pattern.contents
  | .clipMask mask _ => mask.contents
  | _ => []

namespace DrawingCommand

/-- The stream inside a command. -/
def inner : DrawingCommand R → Drawing R
  | .set setting => DrawingSetting.inner setting
  | _ => []

theorem sizeOf_lt_of_mem_inner {c d : DrawingCommand R} (h : d ∈ inner c) :
    sizeOf d < sizeOf c := by
  match c with
  | .set (.fillPattern (.of tile contents)) =>
    have : sizeOf d < sizeOf contents := List.sizeOf_lt_of_mem h
    simp only [Command.set.sizeOf_spec, Setting.fillPattern.sizeOf_spec, Pattern.of.sizeOf_spec]
    omega
  | .set (.clipMask (.of contents size) frame) =>
    have : sizeOf d < sizeOf contents := List.sizeOf_lt_of_mem h
    simp only [Command.set.sizeOf_spec, Setting.clipMask.sizeOf_spec, Mask.of.sizeOf_spec]
    omega

theorem inner_map {S : Resources} (r : Representation R S) (c : DrawingCommand R) :
    inner (DrawingCommand.map r c) = List.map (DrawingCommand.map r) (inner c) := by
  match c with
  | .set (.fillPattern (.of _ contents)) => exact Drawing.map_eq r contents
  | .set (.clipMask (.of contents _) _) => exact Drawing.map_eq r contents
  | .push _ | .pop _ | .transform _ | .mark _ => rfl
  | .set (.fill _) | .set (.stroke _) | .set (.lineWidth _) | .set (.lineCap _)
  | .set (.lineJoin _) | .set (.miterLimit _) | .set (.clip _ _) | .set (.alpha _)
  | .set (.blendMode _) => rfl

/-- What holds of a command if it holds of all commands inside it, holds of every command. -/
theorem nested_induction {P : DrawingCommand R → Prop}
    (step : ∀ c, (∀ d ∈ inner c, P d) → P c) (c : DrawingCommand R) : P c :=
  step c fun d _ => nested_induction step d
termination_by sizeOf c
decreasing_by exact sizeOf_lt_of_mem_inner ‹_›

/-- The command has a property, and so have all commands inside it, to any depth. -/
inductive Everywhere (P : DrawingCommand R → Prop) : DrawingCommand R → Prop
  | intro {c : DrawingCommand R} : P c → (∀ d ∈ inner c, Everywhere P d) → Everywhere P c

theorem Everywhere.here {P : DrawingCommand R → Prop} {c : DrawingCommand R} :
    Everywhere P c → P c
  | .intro h _ => h

theorem Everywhere.inside {P : DrawingCommand R → Prop} {c : DrawingCommand R} :
    Everywhere P c → ∀ d ∈ inner c, Everywhere P d
  | .intro _ h => h

/-- What follows from the property follows everywhere. -/
theorem Everywhere.imp {P Q : DrawingCommand R → Prop} (h : ∀ c, P c → Q c)
    {c : DrawingCommand R} (hc : Everywhere P c) : Everywhere Q c := by
  induction hc with
  | intro here _ ih => exact .intro (h _ here) ih

/-- There is only one place to look if no stream stands inside the command. -/
theorem Everywhere.of_inner_eq_nil {P : DrawingCommand R → Prop} {c : DrawingCommand R} (h : P c)
    (hinner : inner c = []) : Everywhere P c :=
  .intro h (hinner ▸ List.forall_mem_nil _)

end DrawingCommand

end SceneCode
