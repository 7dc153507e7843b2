import SceneCode.Proofs.Backends
import SceneCode.Proofs.Scopes
import SceneCode.Proofs.Tables
import SceneCode.Swift.SourceFile

/-!
# Brackets in generated code

Generated code saves and restores the state, and begins and ends layers, by calls that each stand
on a line of their own. Which call that is can be read off the text of the line (`Line.bracket?`).
In every scope, for itself, these calls are balanced: in the body of the drawing, in the callback of
every pattern, and in the closure of every mask, to any depth.

Nothing but a bracket in the stream becomes such a line (`Statement.Plain.bracketCalls_code`), so
the calls in the scope of a stream are the brackets of the stream (`Nests`). What remains is that
the streams are balanced. This is so because lowering makes balanced streams, inside each other as
well (`BalancedThroughout`), and because simplifying keeps them balanced, however it treats the
outermost bracket.

* `balanced_bracketCalls_of_mem_scopes`: in the source file of a scene, the bracket calls of the
  body are the brackets of the stream, and those in every scope are balanced.
-/

namespace SceneCode

/-! ## Streams that are balanced throughout -/

section Streams

variable {R : Resources}

/-- The stream is balanced, and so are all streams inside its commands, to any depth. -/
structure BalancedThroughout (s : Drawing R) : Prop where
  balanced : Balanced s
  inner : ∀ c ∈ s, DrawingCommand.Everywhere (fun c => Balanced (DrawingCommand.inner c)) c

namespace BalancedThroughout

variable {s t : Drawing R}

theorem nil : BalancedThroughout ([] : Drawing R) := ⟨.nil, List.forall_mem_nil _⟩

/-- Streams that are balanced throughout may be put together. -/
theorem append (hs : BalancedThroughout s) (ht : BalancedThroughout t) :
    BalancedThroughout (s ++ t) :=
  ⟨hs.balanced.append ht.balanced, List.forall_mem_append.2 ⟨hs.inner, ht.inner⟩⟩

/-- A command that is no bracket is balanced throughout if the stream inside it is. -/
theorem single {c : DrawingCommand R} (ho : c.opens? = none) (hc : c.closes? = none)
    (h : BalancedThroughout (DrawingCommand.inner c)) : BalancedThroughout [c] :=
  ⟨.other ho hc .nil, List.forall_mem_singleton.2 (.intro h.balanced h.inner)⟩

/-- A bracket around a stream closes what it opens. -/
theorem bracketed (hs : BalancedThroughout s) (bracket : Bracket) :
    BalancedThroughout (bracketed bracket s) where
  balanced := hs.balanced.wrap
  inner := by
    have hpush : DrawingCommand.Everywhere (fun c => Balanced (DrawingCommand.inner c))
        (.push bracket : DrawingCommand R) := .of_inner_eq_nil .nil rfl
    have hpop : DrawingCommand.Everywhere (fun c => Balanced (DrawingCommand.inner c))
        (.pop bracket : DrawingCommand R) := .of_inner_eq_nil .nil rfl
    refine List.forall_mem_cons.2 ⟨hpush, List.forall_mem_append.2 ⟨hs.inner, ?_⟩⟩
    exact List.forall_mem_singleton.2 hpop

end BalancedThroughout

/-- Whatever is lowered is balanced throughout: every step of lowering puts brackets around streams
    or puts streams together. -/
theorem parametric_balancedThroughout (layers : Bool) (r : Representation .scene R) :
    Parametric (.nesting layers r) (.nesting layers r) fun s _ => BalancedThroughout s where
  nil := .nil
  append := .append
  saved h := h.bracketed .state
  layered h := by
    cases layers with
    | false => exact h
    | true => exact h.bracketed .layer
  transform step := .single rfl rfl .nil
  setting setting := by
    cases setting with
    | fillPattern pattern => exact pattern.elim
    | clipMask mask _ => exact mask.elim
    | _ => exact .single rfl rfl .nil
  mark mark := .single rfl rfl .nil
  mask frame h := .single rfl rfl h
  pattern tile content h := .single rfl rfl h

/-- Simplifying removes pairs of brackets only. -/
theorem Balanced.apply {Mask Pattern : Type} {s : List (Command R Mask Pattern)} (h : Balanced s)
    (use : Simplifications) : Balanced (use.apply s) := by
  rw [Simplifications.apply]
  cases use.emptyBrackets <;> cases use.outerBracket
  · exact h
  · exact h.dropOuterBracket
  · exact h.dropEmptyBrackets
  · exact h.dropEmptyBrackets.dropOuterBracket

/-- Simplifying a stream leaves the streams inside its commands as they are. -/
theorem BalancedThroughout.apply {s : Drawing R} (h : BalancedThroughout s)
    (use : Simplifications) : BalancedThroughout (use.apply s) :=
  ⟨h.balanced.apply use, fun c hc => h.inner c ((use.apply_sublist s).mem hc)⟩

/-- The brackets of a stream, without the commands between them. -/
def brackets (s : Drawing R) : Drawing R := s.filter fun c => c.isPush || c.isPop

/-- The brackets of a balanced stream are balanced without the commands between them. -/
theorem Balanced.brackets {s : Drawing R} (h : Balanced s) : Balanced (brackets s) := by
  induction h with
  | nil => exact .nil
  | @other c rest ho hc _ ih =>
    rwa [SceneCode.brackets, List.filter_cons_of_neg]
    simp [Command.isPush, Command.isPop, ho, hc]
  | @bracket b inside rest _ _ ihInside ihRest =>
    have hsplit : SceneCode.brackets (.push b :: (inside ++ .pop b :: rest)) =
        .push b :: (SceneCode.brackets inside ++ .pop b :: SceneCode.brackets rest) := by
      rw [SceneCode.brackets, List.filter_cons_of_pos rfl, List.filter_append,
        List.filter_cons_of_pos rfl]
      rfl
    rw [hsplit]
    exact .bracket ihInside ihRest

end Streams

namespace Swift

/-! ## Bracket calls -/

/-- The lines that open and close brackets. -/
def bracketLines : List (String × DrawingCommand resources) :=
  [("ctx.saveGState()", .push .state), ("ctx.restoreGState()", .pop .state),
    ("ctx.beginTransparencyLayer(auxiliaryInfo: nil)", .push .layer),
    ("ctx.endTransparencyLayer()", .pop .layer)]

/-- The bracket that a line opens or closes. -/
def Line.bracket? (line : Line) : Option (DrawingCommand resources) :=
  bracketLines.lookup line.text

/-- The lines of code that stand in the scope of the code, and not in a closure. -/
def Code.ownLines : Code → List Line
  | .line content => [content]
  | .closure opening _ closing => [opening, closing]

/-- The brackets that code opens and closes in the scope it stands in. -/
def bracketCalls (code : List Code) : List (DrawingCommand resources) :=
  (code.flatMap Code.ownLines).filterMap Line.bracket?

/-- How the lines of brackets start. -/
def bracketStarts : List (List Char) :=
  ["ctx.sa".toList, "ctx.re".toList, "ctx.be".toList, "ctx.en".toList]

/-- The first six characters tell the lines of brackets from all others. -/
theorem Line.bracket?_eq_none {line : Line}
    (h : (line.flatMap fun piece => piece.text.toList).take 6 ∉ bracketStarts) :
    line.bracket? = none := by
  have hstarts : bracketLines.map (fun entry => entry.1.toList.take 6) = bracketStarts := by decide
  rw [← Line.toList_text, ← hstarts] at h
  rw [Line.bracket?, List.lookup_eq_none_iff]
  intro entry hentry
  rw [bne_iff_ne]
  intro htext
  rw [htext] at h
  exact h (List.mem_map_of_mem hentry)

theorem toString_string (s : String) : toString s = s := rfl

theorem Line.bracket?_constant (n : Name) (rest : Line) : bracket? (.constant n :: rest) = none :=
  bracket?_eq_none (by simp [bracketStarts, Piece.text, toString_string])

theorem Line.bracket?_assignable (n : Name) (rest : Line) :
    bracket? (.assignable n :: rest) = none :=
  bracket?_eq_none (by simp [bracketStarts, Piece.text, toString_string])

/-- What is called on a path is no bracket. -/
theorem Line.bracket?_path (k : Nat) (rest : Line) :
    bracket? (.reference (.numbered .path k) :: rest) = none :=
  bracket?_eq_none (by
    simp [bracketStarts, Piece.text, Name.toList_text, Name.letters, Family.base])

/-- The statement opens and closes no bracket, and has no closure. -/
def Statement.Plain : Statement → Prop
  | .call (.push _) | .call (.pop _) | .mask _ _ _ | .patternDraw _ _ => False
  | _ => True

/-- Calls other than saving and restoring the state, or beginning and ending a layer, are no
    brackets. -/
theorem Call.bracket?_line {c : Call} (h : (Statement.call c).Plain) : c.line.bracket? = none := by
  refine Line.bracket?_eq_none ?_
  cases c with
  | push bracket | pop bracket => exact h.elim
  | transform step =>
    cases step <;>
      simp [bracketStarts, Call.line, Call.suffix, Piece.text, Name.text, toString_string]
  | _ => simp [bracketStarts, Call.line, Call.suffix, Piece.text, Name.text, toString_string]

theorem bracketCalls_append (first second : List Code) :
    bracketCalls (first ++ second) = bracketCalls first ++ bracketCalls second := by
  rw [bracketCalls, List.flatMap_append, List.filterMap_append]
  rfl

theorem bracketCalls_line (line : Line) : bracketCalls [.line line] = line.bracket?.toList := by
  rw [bracketCalls, List.flatMap_singleton, Code.ownLines]
  cases h : line.bracket? <;> simp [h]

/-- The calls in a closure belong to a scope of their own. -/
theorem bracketCalls_closure (n : Name) (rest : Line) (body : List Code) {closing : Line}
    (h : closing.bracket? = none) :
    bracketCalls [.closure (.constant n :: rest) body closing] = [] := by
  rw [bracketCalls, List.flatMap_singleton, Code.ownLines]
  simp [h, Line.bracket?_constant]

/-- Only calls that open or close brackets become lines that do. -/
theorem Statement.Plain.bracketCalls_code {s : Statement} (h : s.Plain) :
    bracketCalls s.code = [] := by
  cases s with
  | mask | patternDraw => exact h.elim
  | call c => rw [Statement.code, bracketCalls_line, c.bracket?_line h, Option.toList_none]
  | extendPath k step =>
    rw [Statement.code, bracketCalls_line, Line.bracket?_path, Option.toList_none]
  | patternAlpha | locations | patternCallback =>
    rw [Statement.code, bracketCalls_line, Line.bracket?_assignable, Option.toList_none]
  | space | color | path | transform | gradient | image =>
    rw [Statement.code, bracketCalls_line]
    exact congrArg Option.toList (Line.bracket?_constant _ _)
  | pattern k tile =>
    -- The lines of the arguments are indented, and the last line is a parenthesis.
    have harguments : ∀ line : Line, Line.bracket? (.plain "  " :: line) = none := fun line =>
      Line.bracket?_eq_none (by simp [bracketStarts, Piece.text])
    have hend : Line.bracket? [.plain ")!"] = none :=
      Line.bracket?_eq_none (by simp [bracketStarts, Piece.text])
    simp [Statement.code, bracketCalls, Code.ownLines, patternArgumentLines, harguments, hend,
      Line.bracket?_constant]

theorem Statement.Plain.allInnerScopes_code {s : Statement} (h : s.Plain) :
    Code.allInnerScopes s.code = [] := by
  cases s with
  | mask | patternDraw => exact h.elim
  | _ => rfl

/-- The statements open and close the brackets of the commands, and those in every scope inside
    them are balanced. -/
structure Nests (ss : List Statement) (cs : Drawing resources) : Prop where
  calls : bracketCalls (Statement.allCode ss) = brackets cs
  inner : ∀ scope ∈ Code.allInnerScopes (Statement.allCode ss), Balanced (bracketCalls scope.code)

namespace Nests

variable {ss ss' : List Statement} {cs cs' : Drawing resources}

theorem nil : Nests [] [] := ⟨rfl, List.forall_mem_nil _⟩

/-- Statements nest as their commands do. -/
theorem append (h : Nests ss cs) (h' : Nests ss' cs') : Nests (ss ++ ss') (cs ++ cs') where
  calls := by
    rw [Statement.allCode_append, bracketCalls_append, h.calls, h'.calls, brackets, brackets,
      brackets, List.filter_append]
  inner := by
    rw [Statement.allCode_append, Code.allInnerScopes_append]
    exact List.forall_mem_append.2 ⟨h.inner, h'.inner⟩

/-- Plain statements go with any commands that are no brackets. -/
theorem plain (h : ∀ s ∈ ss, s.Plain) (hcs : brackets cs = []) : Nests ss cs := by
  have hnone : bracketCalls (Statement.allCode ss) = [] ∧
      Code.allInnerScopes (Statement.allCode ss) = [] := by
    clear hcs
    induction ss with
    | nil => exact ⟨rfl, rfl⟩
    | cons s rest ih =>
      obtain ⟨hs, hrest⟩ := List.forall_mem_cons.1 h
      obtain ⟨hcalls, hscopes⟩ := ih hrest
      rw [Statement.allCode, bracketCalls_append, Code.allInnerScopes_append,
        hs.bracketCalls_code, hs.allInnerScopes_code, hcalls, hscopes]
      exact ⟨rfl, rfl⟩
  refine ⟨hnone.1.trans hcs.symm, ?_⟩
  rw [hnone.2]
  exact List.forall_mem_nil _

end Nests

/-! ## Statements of commands -/

/-- A declaration is no bracket. -/
theorem Statement.IsDeclaration.plain {s : Statement} (h : s.IsDeclaration) : s.Plain := by
  cases s with
  | call | mask | patternDraw => exact h.elim
  | _ => trivial

section Statements

open Tables

variable (t : Tables)

/-- Only brackets and masks become statements of the body that are brackets or have a closure. -/
theorem plain_body_output {c : DrawnCommand} (ho : c.opens? = none) (hc : c.closes? = none)
    (hmask : ∀ m frame, c ≠ .set (.clipMask m frame)) : ∀ s ∈ (t.output c).body, s.Plain := by
  have hdeclared {declarations calls : List Statement} (h : ∀ s ∈ declarations, s.IsDeclaration)
      (hcalls : ∀ s ∈ calls, s.Plain) : ∀ s ∈ declarations ++ calls, s.Plain :=
    List.forall_mem_append.2 ⟨fun s hs => (h s hs).plain, hcalls⟩
  cases c with
  | push bracket => cases ho
  | pop bracket => cases hc
  | transform step =>
    cases step with
    | matrix m => exact hdeclared (t.isDeclaration_declareMatrix m) (by simp [Statement.Plain])
    | translate | scale | rotate => simp [output, transformStatements, Statement.Plain]
  | set setting =>
    cases setting with
    | clipMask m frame => exact absurd rfl (hmask m frame)
    | fill c | stroke c =>
      exact hdeclared (t.isDeclaration_declareColor c) (by simp [Statement.Plain])
    | fillPattern p =>
      exact hdeclared (t.isDeclaration_declareSpace .pattern) (by simp [Statement.Plain])
    | clip p rule =>
      exact hdeclared (t.isDeclaration_declarePath p) (by simp [Statement.Plain])
    | lineWidth | lineCap | lineJoin | miterLimit | alpha | blendMode =>
      simp [output, settingOutput, Statement.Plain]
  | mark mark =>
    cases mark with
    | stroke p | fill p rule =>
      exact hdeclared (t.isDeclaration_declarePath p) (by simp [Statement.Plain])
    | image i frame =>
      simp only [output, markStatements, declareImage]
      split <;> simp [Statement.Plain]
    | linearGradient g | radialGradient g =>
      exact hdeclared (t.isDeclaration_declareGradient g) (by simp [Statement.Plain])

end Statements

/-! ## Closures -/

/-- The bracket calls of the statements are balanced, and so are those in every scope inside
    them. -/
structure ScopesBalanced (ss : List Statement) : Prop where
  own : Balanced (bracketCalls (Statement.allCode ss))
  inner : ∀ scope ∈ Code.allInnerScopes (Statement.allCode ss), Balanced (bracketCalls scope.code)

/-- If the commands are balanced, so are the calls in every scope of the statements. -/
theorem Nests.scopesBalanced {ss : List Statement} {cs : Drawing resources} (h : Nests ss cs)
    (hcs : Balanced cs) : ScopesBalanced ss where
  own := by
    rw [h.calls]
    exact hcs.brackets
  inner := h.inner

namespace ScopesBalanced

variable {ss : List Statement} (h : ScopesBalanced ss)
include h

/-- The callback of a pattern is a scope of its own and no bracket in the scope around it. -/
theorem nests_patternDraw (k : Nat) : Nests [.patternDraw k ss] [] where
  calls := bracketCalls_closure _ _ _ (Line.bracket?_eq_none (by simp [bracketStarts, Piece.text]))
  inner := by
    rw [Statement.allCode_singleton, Statement.allInnerScopes_patternDraw]
    exact List.forall_mem_cons.2 ⟨h.own, h.inner⟩

/-- The lines before and after the statements of a mask are no brackets. -/
theorem nests_mask (k : Nat) (size : Size Literal) : Nests [.mask k size ss] [] where
  calls := bracketCalls_closure _ _ _ (Line.bracket?_eq_none (by simp [bracketStarts, Piece.text]))
  inner := by
    have hcontext : bracketCalls ((maskContextLines size).map .line) = [] := by
      have htranslate := Call.bracket?_line (c := .transform (.translate ⟨0⟩ size.height)) trivial
      have hscale := Call.bracket?_line (c := .transform (.scale ⟨1⟩ ⟨-1⟩)) trivial
      simp [bracketCalls, maskContextLines, Code.ownLines, Line.bracket?_constant, htranslate,
        hscale]
    have himage : bracketCalls [.line maskImageLine] = [] := by
      rw [bracketCalls_line, Line.bracket?_eq_none, Option.toList_none]
      simp [bracketStarts, maskImageLine, Piece.text]
    rw [Statement.allCode_singleton, Statement.allInnerScopes_mask]
    refine List.forall_mem_cons.2 ⟨?_, h.inner⟩
    rw [bracketCalls_append, bracketCalls_append, hcontext, himage, List.nil_append,
      List.append_nil]
    exact h.own

end ScopesBalanced

/-! ## Streams -/

/-- A command that is neither a bracket nor a mask becomes statements without brackets. -/
theorem nests_body (t : Tables) {c : DrawingCommand resources} (ho : c.opens? = none)
    (hc : c.closes? = none) (hmask : ∀ m frame, c ≠ .set (.clipMask m frame)) :
    Nests (t.output (drawCommand c)).body [c] := by
  have hplain := plain_body_output t ((keepsBrackets_drawCommand.opens c).trans ho)
    ((keepsBrackets_drawCommand.closes c).trans hc) (drawCommand_ne_clipMask hmask)
  refine .plain hplain ?_
  rw [brackets, List.filter_cons_of_neg (by simp [Command.isPush, Command.isPop, ho, hc])]
  rfl

/-- The statements of whichever commands nest as the commands do. -/
def NestsCommands (_ : Tables) (ss : List Statement) (cs : Drawing resources) (_ : Tables) : Prop :=
  Nests ss cs

/-- Brackets are called in the order of the commands. -/
theorem composes_nestsCommands : Composes NestsCommands where
  nil _ := .nil
  append := .append

/-- The statements of a command nest as the command does, if the scope inside it is balanced. -/
theorem follows_of_scopesBalanced (c : DrawingCommand resources)
    (h : ScopesBalanced (scope (drawAll (DrawingCommand.inner c)))) : Follows NestsCommands c := by
  refine composes_nestsCommands.follows c (fun p hc t => ?_) fun t _ => ?_
  · subst hc
    rw [Tables.declarePattern]
    -- If the pattern has not been declared yet, the callback is the only closure.
    split
    · exact .nil
    · have hdraw : ScopesBalanced (drawPattern p).body := by
        rw [body_drawPattern]
        exact h
      refine (hdraw.nests_patternDraw _).append (.plain ?_ rfl)
      simp [Statement.Plain]
  · -- In the body, the closures of masks are the only ones.
    by_cases hmask : ∃ m frame, c = .set (.clipMask m frame)
    · obtain ⟨⟨contents, size⟩, frame, rfl⟩ := hmask
      refine (ScopesBalanced.nests_mask h t.masks size).append (.plain ?_ rfl)
      simp [Statement.Plain]
    · have hne : ∀ m frame, c ≠ .set (.clipMask m frame) := fun m frame hc => hmask ⟨m, frame, hc⟩
      cases c with
      | push bracket | pop bracket => cases bracket <;> exact ⟨rfl, List.forall_mem_nil _⟩
      | transform | set | mark => exact nests_body t rfl rfl hne

/-- The statements of a stream call the brackets of its commands. -/
theorem nests_outputAll {commands : Drawing resources}
    (h : ∀ c ∈ commands, Follows NestsCommands c) :
    Nests (Tables.outputAll {} (drawAll commands)).statements commands := by
  obtain ⟨hpreamble, hbody⟩ := composes_nestsCommands.output h
  exact hpreamble.append hbody

/-- The statements of a command call its bracket, and inside its scopes those of its streams. -/
theorem follows_nestsCommands {c : DrawingCommand resources}
    (h : DrawingCommand.Everywhere (fun c => Balanced (DrawingCommand.inner c)) c) :
    Follows NestsCommands c := by
  refine follows_of_everywhere (fun c hc hinner => ?_) h
  refine follows_of_scopesBalanced c ?_
  -- What is rendered is the simplified stream, which is as balanced as the stream inside.
  rw [scope_drawAll]
  exact (nests_outputAll hinner).scopesBalanced (hc.apply .all)

/-- The bracket calls in the body of the source file of a scene are the brackets of the stream, and
    the bracket calls in every scope are balanced: those of the body, and those in the closures and
    callbacks in it, to any depth. -/
theorem balanced_bracketCalls_of_mem_scopes (s : Scene) (title : String) (settings : Settings) :
    let rendering := Rendering.render {} (s.swiftCommands settings)
    s.swiftSource title settings =
        rendering.sourceFile title ((representation settings.precision).size s.size) ∧
      bracketCalls rendering.code = brackets (s.swiftCommands settings) ∧
      ∀ scope ∈ rendering.scopes, Balanced (bracketCalls scope.code) := by
  intro rendering
  have hlower : BalancedThroughout (s.swiftCommands settings) :=
    ((parametric_balancedThroughout true _).lower s.root).apply settings.simplifications
  have hnests : Nests rendering.output.statements (s.swiftCommands settings) :=
    nests_outputAll fun c hc => follows_nestsCommands (hlower.inner c hc)
  have hscopes := hnests.scopesBalanced hlower.balanced
  exact ⟨rfl, hnests.calls, List.forall_mem_cons.2 ⟨hscopes.own, hscopes.inner⟩⟩

end Swift

end SceneCode
