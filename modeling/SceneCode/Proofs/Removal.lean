import SceneCode.Proofs.Scopes
import SceneCode.Proofs.Tables

/-!
# Removing brackets from code

Simplifying a stream before it is rendered, or removing lines after that, comes to the same. To say
this, the body is cut into the lines of the single commands (`Part`, `Tables.parts`); where a
command is the first to use a resource, its lines declare it, and the closure of a mask is in the
lines of the command that clips to it.

A bracket is rendered as one line, it declares nothing, and it does not touch the tables. So when
brackets are left out of a stream, every other command is rendered from the same tables as before,
and its lines stay as they are. Simplifying leaves out nothing but brackets
(`Simplifications.omits_apply`), and this is all that is needed: the stream need not be balanced.

* `lines_render_apply`: rendering a simplified stream leads to the same preamble, and to the same
  body without the lines of those brackets that have been removed.
-/

namespace SceneCode.Swift

theorem Code.allLines_append (first second : List Code) :
    Code.allLines (first ++ second) = Code.allLines first ++ Code.allLines second := by
  induction first with
  | nil => rfl
  | cons c rest ih => rw [List.cons_append, allLines, allLines, ih, List.append_assoc]

/-- A command, and the lines of the body that it is rendered as. -/
structure Part where
  command : DrawingCommand resources
  lines : List String

/-- The commands of a stream, each with its lines, when they are rendered from the tables. -/
def Tables.parts (t : Tables) : Drawing resources → List Part
  | [] => []
  | c :: rest =>
    ⟨c, Code.allLines (Statement.allCode (t.output (drawCommand c)).body)⟩ ::
      (t.after (drawCommand c)).parts rest

/-- The command is a bracket, and its only line is the call of this bracket. -/
def Part.IsBracket (p : Part) : Prop :=
  ∃ b, p = ⟨.push b, [(Call.push b).line.text]⟩ ∨ p = ⟨.pop b, [(Call.pop b).line.text]⟩

namespace Tables

theorem command_parts (t : Tables) (commands : Drawing resources) :
    (t.parts commands).map Part.command = commands := by
  induction commands generalizing t with
  | nil => rfl
  | cons c rest ih => exact congrArg (c :: ·) (ih (t.after (drawCommand c)))

/-- The parts make up the body. -/
theorem lines_parts (t : Tables) (commands : Drawing resources) :
    (t.parts commands).flatMap Part.lines =
      Code.allLines (Statement.allCode (t.outputAll (drawAll commands)).body) := by
  induction commands generalizing t with
  | nil => rfl
  | cons c rest ih =>
    have hbody : (t.outputAll (drawAll (c :: rest))).body =
        (t.output (drawCommand c)).body ++
          ((t.after (drawCommand c)).outputAll (drawAll rest)).body := rfl
    rw [hbody, Statement.allCode_append, Code.allLines_append, ← ih]
    rfl

variable {first second : Drawing resources}

/-- If brackets are left out of a stream, the same parts are left out. -/
theorem omits_parts (h : Omits Command.IsBracket first second) (t : Tables) :
    Omits Part.IsBracket (t.parts first) (t.parts second) := by
  induction h generalizing t with
  | nil => exact .nil
  | keep c _ ih => exact (ih _).keep _
  | drop hc _ ih =>
    -- The tables after a bracket are those before it.
    obtain ⟨b, rfl | rfl⟩ := hc
    · exact (ih t).drop ⟨b, .inl rfl⟩
    · exact (ih t).drop ⟨b, .inr rfl⟩

/-- Brackets have no part in the preamble. -/
theorem preamble_outputAll_of_omits (h : Omits Command.IsBracket first second) (t : Tables) :
    (t.outputAll (drawAll second)).preamble = (t.outputAll (drawAll first)).preamble := by
  induction h generalizing t with
  | nil => rfl
  | keep c _ ih => exact congrArg ((t.output (drawCommand c)).preamble ++ ·) (ih _)
  | drop hc _ ih =>
    obtain ⟨b, rfl | rfl⟩ := hc
    · exact ih t
    · exact ih t

end Tables

/-- Rendering a simplified stream leads to the same preamble. It leads to the same body, except that
    the parts of the brackets are missing that have been removed: all other commands are rendered as
    the same lines, in the same order. -/
theorem lines_render_apply (use : Simplifications) (commands : Drawing resources) :
    (Rendering.render {} (use.apply commands)).preambleLines =
        (Rendering.render {} commands).preambleLines ∧
      (Tables.parts {} commands).map Part.command = commands ∧
      (Rendering.render {} commands).bodyLines = (Tables.parts {} commands).flatMap Part.lines ∧
      ∃ kept, Omits Part.IsBracket (Tables.parts {} commands) kept ∧
        kept.map Part.command = use.apply commands ∧
        (Rendering.render {} (use.apply commands)).bodyLines = kept.flatMap Part.lines := by
  have homits := use.omits_apply commands
  -- Rendered on its own, the output of a stream is what it becomes from empty tables.
  have hbody : ∀ s : Drawing resources,
      (Rendering.render {} s).bodyLines = (Tables.parts {} s).flatMap Part.lines :=
    fun s => (Tables.lines_parts {} s).symm
  have hpreamble := Tables.preamble_outputAll_of_omits homits {}
  refine ⟨congrArg (fun ss => Code.allLines (Statement.allCode ss)) hpreamble,
    Tables.command_parts {} commands, hbody commands, Tables.parts {} (use.apply commands),
    Tables.omits_parts homits {}, Tables.command_parts {} _, hbody _⟩

end SceneCode.Swift
