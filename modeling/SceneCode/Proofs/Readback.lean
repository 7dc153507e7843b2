import SceneCode.Proofs.Execution

/-!
# Reading commands back from calls

The calls that a command stands for tell which command it is, but the calls of a mask or a pattern
are those of its simplified stream. So what can be read back from calls (`commandsOf`) are commands
whose masks and patterns have been simplified, to any depth (`DrawingCommand.simplified`).

* `commandsOf_allActions`: the commands of a stream can be read back from its calls, simplified
  inside.
-/

namespace SceneCode

variable {R : Resources}

/-! ## Simplifying to any depth -/

mutual

/-- The mask with its stream simplified. -/
def Mask.simplified : Mask R → Mask R
  | .of contents size => .of (Simplifications.all.apply (Drawing.simplifiedInside contents)) size
termination_by structural m => m

/-- The pattern with its stream simplified. -/
def Pattern.simplified : Pattern R → Pattern R
  | .of tile contents => .of tile (Simplifications.all.apply (Drawing.simplifiedInside contents))
termination_by structural p => p

/-- The stream with the masks and patterns of its commands simplified. -/
def Drawing.simplifiedInside : List (DrawingCommand R) → Drawing R
  | [] => []
  | c :: rest => DrawingCommand.simplified c :: Drawing.simplifiedInside rest
termination_by structural d => d

/-- The command with its mask or pattern simplified. -/
def DrawingCommand.simplified : Command R (Mask R) (Pattern R) → DrawingCommand R
  | .push bracket => .push bracket
  | .pop bracket => .pop bracket
  | .transform step => .transform step
  | .set setting => .set (DrawingSetting.simplified setting)
  | .mark mark => .mark mark
termination_by structural c => c

/-- The setting with its mask or pattern simplified. -/
def DrawingSetting.simplified : Setting R (Mask R) (Pattern R) → DrawingSetting R
  | .fillPattern pattern => .fillPattern pattern.simplified
  | .clipMask mask frame => .clipMask mask.simplified frame
  | .fill color => .fill color
  | .stroke color => .stroke color
  | .lineWidth width => .lineWidth width
  | .lineCap cap => .lineCap cap
  | .lineJoin join => .lineJoin join
  | .miterLimit limit => .miterLimit limit
  | .clip path rule => .clip path rule
  | .alpha alpha => .alpha alpha
  | .blendMode mode => .blendMode mode
termination_by structural s => s

end

theorem Drawing.simplifiedInside_eq_map (s : Drawing R) :
    Drawing.simplifiedInside s = List.map DrawingCommand.simplified s := by
  induction s with
  | nil => rfl
  | cons c rest ih => exact congrArg (DrawingCommand.simplified c :: ·) ih

theorem keepsBrackets_simplified :
    KeepsBrackets (DrawingCommand.simplified : DrawingCommand R → DrawingCommand R) where
  opens c := by cases c <;> rfl
  closes c := by cases c <;> rfl

/-- It makes no difference whether a stream is simplified before or after what is inside it. -/
theorem Drawing.apply_simplifiedInside (s : Drawing R) :
    Simplifications.all.apply (Drawing.simplifiedInside s) =
      List.map DrawingCommand.simplified (Simplifications.all.apply s) := by
  rw [Drawing.simplifiedInside_eq_map, keepsBrackets_simplified.apply_map]

namespace Swift

/-! ## Commands from calls -/

/-- The path that has been added last, after a call. -/
def Action.pathAfter (path : Path) : Action → Path
  | .addPath added => added
  | _ => path

mutual

/-- The command that ends with a call, if the path has been added before. -/
def Action.command? (path : Path) : Action → Option (DrawingCommand resources)
  | .push bracket => some (.push bracket)
  | .pop bracket => some (.pop bracket)
  | .transform step => some (.transform step)
  | .setFillColor color => some (.set (.fill color))
  | .setFillColorSpace _ => none
  | .setFillPattern tile contents _ =>
    some (.set (.fillPattern (.of tile (commandsOf ⟨[]⟩ contents))))
  | .setStrokeColor color => some (.set (.stroke color))
  | .setLineWidth width => some (.set (.lineWidth width))
  | .setLineCap cap => some (.set (.lineCap cap))
  | .setLineJoin join => some (.set (.lineJoin join))
  | .setMiterLimit limit => some (.set (.miterLimit limit))
  | .setAlpha alpha => some (.set (.alpha alpha))
  | .setBlendMode mode => some (.set (.blendMode mode))
  | .addPath _ => none
  | .clip rule => some (.set (.clip path rule))
  -- The first two calls in a mask turn its context.
  | .clipToMask frame size contents =>
    some (.set (.clipMask (.of ((commandsOf ⟨[]⟩ contents).drop 2) size) frame))
  | .strokePath => some (.mark (.stroke path))
  | .fillPath rule => some (.mark (.fill path rule))
  | .drawImage image frame => some (.mark (.image image frame))
  | .drawLinearGradient gradient start stop => some (.mark (.linearGradient gradient start stop))
  | .drawRadialGradient gradient startCenter startRadius endCenter endRadius =>
    some (.mark (.radialGradient gradient startCenter startRadius endCenter endRadius))
termination_by structural call => call

/-- The commands that some calls stand for, if the path has been added before. -/
def commandsOf (path : Path) : List Action → Drawing resources
  | [] => []
  | call :: rest => (call.command? path).toList ++ commandsOf (call.pathAfter path) rest
termination_by structural calls => calls

end

/-- A command is the first one that is read back from its calls. -/
def ReadsBack (c : DrawingCommand resources) : Prop :=
  ∀ path rest, ∃ path', commandsOf path (actions c ++ rest) =
    DrawingCommand.simplified c :: commandsOf path' rest

theorem commandsOf_allActions_of_readsBack {commands : Drawing resources}
    (h : ∀ c ∈ commands, ReadsBack c) (path : Path) :
    commandsOf path (allActions commands) = Drawing.simplifiedInside commands := by
  induction commands generalizing path with
  | nil => rfl
  | cons c commands ih =>
    obtain ⟨hc, hcommands⟩ := List.forall_mem_cons.1 h
    obtain ⟨path', hfirst⟩ := hc path (allActions commands)
    rw [ih hcommands] at hfirst
    exact hfirst

/-- Every command can be read back from its calls, those of its path included. -/
theorem readsBack (c : DrawingCommand resources) : ReadsBack c := by
  induction c using DrawingCommand.nested_induction with
  | step c ih =>
    intro path rest
    -- The stream inside the command is read back from its own calls.
    have hinner :
        commandsOf ⟨[]⟩ (allActions (Simplifications.all.apply (DrawingCommand.inner c))) =
          Simplifications.all.apply (Drawing.simplifiedInside (DrawingCommand.inner c)) := by
      rw [Drawing.apply_simplifiedInside, ← Drawing.simplifiedInside_eq_map]
      exact commandsOf_allActions_of_readsBack (fun d hd =>
        ih d ((Simplifications.apply_sublist _ _).mem hd)) _
    match c with
    | .set (.fillPattern (.of tile contents)) =>
      refine ⟨path, ?_⟩
      rw [actions_fillPattern]
      exact congrArg (fun s => .set (.fillPattern (Pattern.of tile s)) :: commandsOf path rest)
        hinner
    | .set (.clipMask (.of contents size) frame) =>
      refine ⟨path, ?_⟩
      rw [actions_clipMask]
      exact congrArg (fun s => .set (.clipMask (Mask.of s size) frame) :: commandsOf path rest)
        hinner
    | .push _ | .pop _ | .transform _ | .set (.fill _) | .set (.stroke _) | .set (.lineWidth _)
    | .set (.lineCap _) | .set (.lineJoin _) | .set (.miterLimit _) | .set (.clip _ _)
    | .set (.alpha _) | .set (.blendMode _) | .mark (.stroke _) | .mark (.fill _ _)
    | .mark (.image _ _) | .mark (.linearGradient _ _ _) | .mark (.radialGradient _ _ _ _ _) =>
      rw [actions]
      exact ⟨_, rfl⟩

end Swift

end SceneCode
