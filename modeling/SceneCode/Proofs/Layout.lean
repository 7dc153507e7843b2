import SceneCode.Proofs.Brackets
import SceneCode.Proofs.Lines
import SceneCode.Proofs.Represented

/-!
# The layout of the lines

A text is read with a stack of the characters that have to close what is open (`closersAfter`).
Numbers and names have no brackets, and every expression closes the brackets that it opens, so it
leaves the stack as it is (`Closed`). Only keywords and images are texts that come from outside, and
those that the backend makes have no brackets either (`textsClosed_of_represented`).

Only three kinds of lines leave a bracket open: those that open the closure of a mask, the closure
that draws a pattern, or the arguments of a pattern (`Block`). What stands in such a block is a
layout of its own, two spaces further in, and the line that closes the block stands under the one
that opens it (`LaidOut`).

* `laidOut_lines_foldl_render`: whatever commands are rendered, the lines are laid out in this way,
  if the texts in the commands close what they open;
* `LaidOut.closed`, `LaidOut.ne_empty_and_not_mem`: in lines that are laid out, all brackets are
  nested and closed, and no line is empty or has a line break.
-/

namespace SceneCode.Swift

/-! ## Brackets in a text -/

/-- A character is read: what is open is given by the characters that close it, the innermost
    first. A bracket has to be closed by its own character, and a line does not break. -/
def readChar (closers : List Char) : Char → Option (List Char)
  | '(' => some (')' :: closers)
  | '[' => some (']' :: closers)
  | '\x7b' => some ('\x7d' :: closers)
  | ')' => if closers.head? = some ')' then some closers.tail else none
  | ']' => if closers.head? = some ']' then some closers.tail else none
  | '\x7d' => if closers.head? = some '\x7d' then some closers.tail else none
  | '\n' => none
  | _ => some closers

/-- What is open after a text. -/
def closersAfter (closers : List Char) (text : List Char) : Option (List Char) :=
  text.foldlM readChar closers

/-- The text closes what it opens, and nothing else. -/
abbrev Closed (text : List Char) : Prop := ∀ closers, closersAfter closers text = some closers

variable {closers u v : List Char}

/-- Texts are scanned one after the other, as the brackets that are open are all that is kept. -/
theorem closersAfter_append : closersAfter closers (u ++ v) =
    (closersAfter closers u).bind fun opened => closersAfter opened v :=
  List.foldlM_append

/-- Texts that close what they open may be put together. -/
theorem Closed.append (hu : Closed u) (hv : Closed v) : Closed (u ++ v) := fun closers => by
  rw [closersAfter_append, hu, Option.bind_some, hv]

/-- The scan stops at a line break. -/
theorem not_mem_of_closersAfter {opened : List Char} (h : closersAfter closers u = some opened) :
    '\n' ∉ u := by
  intro hmem
  obtain ⟨before, after, rfl⟩ := List.append_of_mem hmem
  rw [closersAfter_append] at h
  obtain ⟨middle, _, h⟩ := Option.bind_eq_some_iff.1 h
  cases h

/-- The brackets, and the line break. -/
def bracketChars : List Char := ['(', ')', '[', ']', '\x7b', '\x7d', '\n']

/-- Only brackets and line breaks matter to the scan. -/
theorem readChar_of_not_mem {c : Char} (h : c ∉ bracketChars) :
    readChar closers c = some closers := by
  rw [readChar.eq_def]
  split
  all_goals first | rfl | exact absurd (by decide) h

theorem closed_of_not_mem (h : ∀ c ∈ u, c ∉ bracketChars) : Closed u := by
  intro closers
  induction u with
  | nil => rfl
  | cons c u ih =>
    rw [closersAfter, List.foldlM_cons, readChar_of_not_mem (h c List.mem_cons_self)]
    exact ih fun d hd => h d (List.mem_cons_of_mem _ hd)

/-! ## Words -/

/-- A word has no brackets. -/
theorem closed_of_isWordChar (h : ∀ c ∈ u, isWordChar c = true) : Closed u := by
  have hbrackets : ∀ c ∈ bracketChars, (!isWordChar c) = true := List.all_eq_true.1 rfl
  refine closed_of_not_mem fun c hc hmem => ?_
  have hword := hbrackets c hmem
  rw [h c hc] at hword
  exact Bool.noConfusion hword

theorem closed_literal (l : Literal) : Closed l.chars :=
  closed_of_isWordChar l.isWordChar_of_mem_chars

theorem closed_name (n : Name) : Closed n.text.toList :=
  closed_of_isWordChar fun c hc => by simp [isWordChar, n.isAlphanum_of_mem_text c hc]

/-- No digit of the encoding is a bracket. -/
theorem digit_not_mem (value : Nat) : Base64.digit value ∉ bracketChars := by
  have hdigits : ∀ value < 63, Base64.digit value ∉ bracketChars := by decide
  by_cases h : value < 63
  · exact hdigits value h
  · rw [Base64.digit, if_neg (by omega), if_neg (by omega), if_neg (by omega), if_neg (by omega)]
    decide

theorem digits_not_mem (bits : Nat) : ∀ c ∈ Base64.digits bits, c ∉ bracketChars := by
  simp [Base64.digits, digit_not_mem]

/-- However many bytes there are, the groups of digits and the padding have no brackets. -/
theorem closed_encode : ∀ bytes : List UInt8, Closed (Base64.encode bytes)
  | [] => fun _ => rfl
  | [_] | [_, _] =>
    Closed.append (closed_of_not_mem fun c hc => digits_not_mem _ c (List.mem_of_mem_take hc))
      fun _ => rfl
  | _ :: _ :: _ :: rest =>
    Closed.append (closed_of_not_mem (digits_not_mem _)) (closed_encode rest)

/-! ## Expressions -/

theorem closed_pointText (p : Point Literal) : Closed (pointText p).toList := by
  intro closers
  simp only [toList_pointText, closersAfter_append, closed_literal]
  rfl

theorem closed_sizeText (s : Size Literal) : Closed (sizeText s).toList := by
  intro closers
  delta sizeText
  simp only [String.toList_append, Literal.toList_toString, closersAfter_append, closed_literal]
  rfl

theorem closed_rectText (r : Rect Literal) : Closed (rectText r).toList := by
  intro closers
  delta rectText
  simp only [String.toList_append, Literal.toList_toString, closersAfter_append, closed_literal]
  rfl

theorem closed_matrixText (m : Affine Literal) : Closed (matrixText m).toList := by
  intro closers
  delta matrixText
  simp only [String.toList_append, Literal.toList_toString, closersAfter_append, closed_literal]
  rfl

/-- Joined texts close what they open if each of them does, and the separator. -/
theorem closed_joined {separator : String} (hseparator : Closed separator.toList) :
    ∀ {texts : List String}, (∀ text ∈ texts, Closed text.toList) →
      Closed (joined separator texts).toList
  | [], _ => fun _ => rfl
  | [text], h => h text List.mem_cons_self
  | text :: next :: rest, h => by
    have hrest := closed_joined hseparator fun t ht => h t (List.mem_cons_of_mem _ ht)
    have hjoined : joined separator (text :: next :: rest) =
        text ++ separator ++ joined separator (next :: rest) := rfl
    rw [hjoined, String.toList_append, String.toList_append]
    exact ((h text List.mem_cons_self).append hseparator).append hrest

/-- A list puts its items between brackets. -/
theorem closed_listText {items : List String} (h : ∀ item ∈ items, Closed item.toList) :
    Closed (listText items).toList := by
  intro closers
  have hcomma : Closed ", ".toList := fun _ => rfl
  have hitems := closed_joined hcomma h
  simp only [listText, String.toList_append, closersAfter_append, hitems]
  rfl

theorem closed_literals (literals : List Literal) :
    Closed (listText (literals.map Literal.text)).toList :=
  closed_listText (List.forall_mem_map.2 fun l _ => by
    rw [Literal.text, String.toList_ofList]
    exact closed_literal l)

theorem closed_points (points : List (Point Literal)) :
    Closed (listText (points.map pointText)).toList :=
  closed_listText (List.forall_mem_map.2 fun p _ => closed_pointText p)

theorem Color.closed_line (c : Color) : Closed (Line.text c.line).toList := by
  intro closers
  rw [Color.line]
  simp only [Line.toList_text_cons, Piece.text, String.toList_append, toString_string,
    closersAfter_append, closed_name, closed_literals]
  rfl

theorem closed_colors (colors : List Color) :
    Closed (Line.text (listLine (colors.map Color.line))).toList := by
  rw [toList_text_listLine, List.map_map]
  exact closed_listText (List.forall_mem_map.2 fun c _ => c.closed_line)

theorem closed_spaceText (s : ColorSpace) : Closed (spaceText s).toList := by
  cases s <;> exact fun _ => rfl

/-! ## Texts from outside -/

/-- The texts that are put into a call as they are. -/
def Call.texts : Call → List String
  | setLineCap keyword | setLineJoin keyword | setBlendMode keyword | clip keyword
  | fillPath keyword => [keyword]
  | _ => []

/-- The texts that are put into a statement as they are. -/
def Statement.texts : Statement → List String
  | image _ picture => [picture.base64]
  | call c => c.texts
  | _ => []

/-- The texts that a command has by itself: its keywords, and that of its image. -/
def DrawingCommand.texts : DrawingCommand resources → List String
  | .set (.lineCap keyword) | .set (.lineJoin keyword) | .set (.blendMode keyword)
  | .set (.clip _ keyword) | .mark (.fill _ keyword) => [keyword]
  | .mark (.image picture _) => [picture.base64]
  | _ => []

/-- The texts in the command close what they open, and have no line break. -/
def TextsClosed (c : DrawingCommand resources) : Prop :=
  ∀ text ∈ DrawingCommand.texts c, Closed text.toList

theorem closed_blendModeKeyword (mode : BlendMode) : Closed (blendModeKeyword mode).toList := by
  cases mode <;> exact fun _ => rfl

theorem closed_fillRuleKeyword (rule : FillRule) : Closed (fillRuleKeyword rule).toList := by
  cases rule <;> exact fun _ => rfl

theorem closed_lineCapKeyword (cap : LineCap) : Closed (lineCapKeyword cap).toList := by
  cases cap <;> exact fun _ => rfl

theorem closed_lineJoinKeyword (join : LineJoin) : Closed (lineJoinKeyword join).toList := by
  cases join <;> exact fun _ => rfl

/-- The bytes of an image are encoded, and so have no brackets. -/
theorem closed_representImage (image : SceneCode.Image) :
    Closed (representImage image).base64.toList := by
  rw [representImage, String.toList_ofList]
  exact closed_encode image.bytes

/-- The backend makes keywords without brackets, and writes images with letters and digits. -/
theorem textsClosed_of_commandRepresented {c : DrawingCommand resources}
    (h : CommandRepresented c) : TextsClosed c := by
  match c with
  | .set (.blendMode _) =>
    obtain ⟨_, mode, rfl⟩ := h
    exact List.forall_mem_singleton.2 (closed_blendModeKeyword mode)
  | .set (.lineCap _) =>
    obtain ⟨_, cap, rfl⟩ := h
    exact List.forall_mem_singleton.2 (closed_lineCapKeyword cap)
  | .set (.lineJoin _) =>
    obtain ⟨_, join, rfl⟩ := h
    exact List.forall_mem_singleton.2 (closed_lineJoinKeyword join)
  | .set (.clip _ _) | .mark (.fill _ _) =>
    obtain ⟨_, _, rule, rfl⟩ := h
    exact List.forall_mem_singleton.2 (closed_fillRuleKeyword rule)
  | .mark (.image _ _) =>
    obtain ⟨⟨_, image, rfl⟩, _⟩ := h
    exact List.forall_mem_singleton.2 (closed_representImage image)
  | .push _ | .pop _ | .transform _ | .set (.fill _) | .set (.fillPattern _) | .set (.stroke _)
  | .set (.lineWidth _) | .set (.miterLimit _) | .set (.clipMask _ _) | .set (.alpha _)
  | .mark (.stroke _) | .mark (.linearGradient _ _ _) | .mark (.radialGradient _ _ _ _ _) =>
    exact List.forall_mem_nil _

/-- All texts in a command that represents scene values close what they open, at every depth. -/
theorem textsClosed_of_represented {c : DrawingCommand resources} (h : Represented c) :
    DrawingCommand.Everywhere TextsClosed c :=
  h.imp fun _ => textsClosed_of_commandRepresented

/-! ## Lines -/

theorem PathStep.closed_text (step : PathStep) : Closed step.text.toList := by
  intro closers
  rw [toList_text]
  cases step
  all_goals
    simp only [arguments, closersAfter_append, closed_pointText, closed_rectText, closed_literal,
      closed_points]
    rfl

/-- A call closes its brackets, if the texts among its arguments do. -/
theorem Call.closed_suffix (c : Call) (h : ∀ text ∈ c.texts, Closed text.toList) :
    Closed (Line.text c.suffix).toList := by
  intro closers
  have hkeyword {keyword : String} (hc : c.texts = [keyword]) : Closed keyword.toList :=
    h keyword (hc ▸ List.mem_cons_self)
  cases c using cases_head
  case setLineCap | setLineJoin | setBlendMode | clip | fillPath =>
    delta suffix
    simp only [Line.toList_text_cons, Piece.text, String.toList_append, toString_string,
      closersAfter_append, hkeyword rfl]
    rfl
  all_goals
    delta suffix
    simp only [Line.toList_text_cons, Piece.text, String.toList_append, toString_string,
      Literal.toList_toString, closersAfter_append, closed_literal, closed_name, closed_pointText,
      closed_rectText]
    rfl

theorem Call.closed_line (c : Call) (h : ∀ text ∈ c.texts, Closed text.toList) :
    Closed (Line.text c.line).toList := by
  intro closers
  rw [Call.line]
  simp only [Line.toList_text_cons, Piece.text, closersAfter_append, closed_name, c.closed_suffix h]
  rfl

/-- The text of a line that opens and closes nothing. It is not indented. -/
structure LineText (text : String) : Prop where
  closed : Closed text.toList
  head : ∃ c rest, text.toList = c :: rest ∧ c ≠ ' '

theorem Name.toList_text_ne_nil (n : Name) : n.text.toList ≠ [] := by
  have hbase (family : Family) : family.base.toList ≠ [] := by cases family <;> decide
  have hletters : n.letters.toList ≠ [] := by
    cases n with
    | numbered family _ => exact hbase family
    | space s => cases s <;> decide
    | patternAlpha | context => decide
  rw [n.toList_text]
  exact List.append_ne_nil_of_left_ne_nil hletters _

/-- A line that starts with a name or a keyword is not empty and not indented. -/
theorem Piece.Starts.head {p : Piece} (h : p.Starts) (rest : Line) :
    ∃ c cs, (Line.text (p :: rest)).toList = c :: cs ∧ c ≠ ' ' := by
  rw [Line.toList_text_cons]
  cases h with
  | constant n => exact ⟨'l', _, by rw [toList_text_constant]; rfl, by decide⟩
  | assignable n => exact ⟨'v', _, by rw [toList_text_assignable]; rfl, by decide⟩
  | reference n =>
    have hletters : ∀ c ∈ n.text.toList, c ≠ ' ' := by
      rintro c hc rfl
      exact Bool.noConfusion (n.isAlphanum_of_mem_text ' ' hc)
    cases hn : n.text.toList with
    | nil => exact absurd hn n.toList_text_ne_nil
    | cons c cs =>
      rw [Piece.text, hn]
      exact ⟨c, _, rfl, hletters c (hn ▸ List.mem_cons_self)⟩

/-! ## Blocks -/

/-- A block of lines: the closure of a mask, the closure that draws a pattern, or the arguments of a
    pattern. -/
inductive Block
  | mask (index : Nat)
  | patternDraw (index : Nat)
  | pattern (index : Nat)

namespace Block

/-- The line that opens a block. -/
def opening : Block → String
  | mask k => s!"let {Name.numbered .mask k} = \x7b () -> CGImage in"
  | patternDraw k =>
    s!"let {Name.numbered .patternDraw k}: CGPatternDrawPatternCallback = \x7b _, ctx in"
  | pattern k => s!"let {Name.numbered .pattern k} = CGPattern("

/-- The line that closes it. -/
def closing : Block → String
  | mask _ => "\x7d()"
  | patternDraw _ => "\x7d"
  | pattern _ => ")!"

/-- The bracket that is open inside. -/
def closer : Block → Char
  | mask _ | patternDraw _ => '\x7d'
  | pattern _ => ')'

theorem toList_toString_name (n : Name) : toString n = n.text := rfl

/-- The opening of a block leaves one bracket open, which is the one that its closing closes. -/
theorem closersAfter_opening (b : Block) (closers : List Char) :
    closersAfter closers b.opening.toList = some (b.closer :: closers) := by
  cases b
  all_goals
    delta opening
    simp only [String.toList_append, toString_string, toList_toString_name, closersAfter_append,
      closed_name]
    rfl

theorem closersAfter_closing (b : Block) (closers : List Char) :
    closersAfter (b.closer :: closers) b.closing.toList = some closers := by
  cases b <;> simp only [closer, closing] <;> rfl

theorem opening_ne_nil (b : Block) : b.opening.toList ≠ [] := by
  intro h
  have hopening := b.closersAfter_opening []
  rw [h] at hopening
  cases hopening

theorem closing_ne_nil (b : Block) : b.closing.toList ≠ [] := by
  intro h
  have hclosing := b.closersAfter_closing []
  rw [h] at hclosing
  cases hclosing

end Block

/-! ## Layout -/

/-- Two spaces for each level. -/
def indentation : Nat → String
  | 0 => ""
  | depth + 1 => "  " ++ indentation depth

/-- The lines are laid out at some depth: they are indented by it, and so are the lines that open
    and close a block, with the lines of the block one level deeper in between. A line that opens a
    block leaves a bracket open, so it can be no line of its own. -/
inductive LaidOut : Nat → List String → Prop
  | nil (depth : Nat) : LaidOut depth []
  | line {depth : Nat} {text : String} {rest : List String} (h : LineText text)
      (hrest : LaidOut depth rest) : LaidOut depth ((indentation depth ++ text) :: rest)
  | block {depth : Nat} {body rest : List String} (b : Block) (hbody : LaidOut (depth + 1) body)
      (hrest : LaidOut depth rest) :
      LaidOut depth ((indentation depth ++ b.opening) ::
        (body ++ (indentation depth ++ b.closing) :: rest))

namespace LaidOut

variable {depth : Nat} {lines first second : List String}

/-- What is laid out may be put together at the same depth. -/
theorem append (hfirst : LaidOut depth first) (hsecond : LaidOut depth second) :
    LaidOut depth (first ++ second) := by
  induction hfirst with
  | nil _ => exact hsecond
  | line h _ ih => exact .line h (ih hsecond)
  | block b hbody _ _ ih =>
    rw [List.cons_append, List.append_assoc, List.cons_append]
    exact .block b hbody (ih hsecond)

/-- The spaces in front of a line are no brackets. -/
theorem closed_indentation : ∀ depth, Closed (indentation depth).toList
  | 0 => fun _ => rfl
  | depth + 1 => by
    rw [indentation, String.toList_append]
    exact Closed.append (fun _ => rfl) (closed_indentation depth)

/-- In lines that are laid out, all brackets are nested and closed. -/
theorem closed (h : LaidOut depth lines) : Closed (lines.flatMap String.toList) := by
  have hindented (depth : Nat) (text : String) (closers : List Char) :
      closersAfter closers (indentation depth ++ text).toList =
        closersAfter closers text.toList := by
    rw [String.toList_append, closersAfter_append, closed_indentation, Option.bind_some]
  induction h with
  | nil _ => exact fun _ => rfl
  | line h _ ih =>
    intro closers
    rw [List.flatMap_cons, closersAfter_append, hindented, h.closed, Option.bind_some, ih]
  | block b _ _ ihbody ihrest =>
    intro closers
    rw [List.flatMap_cons, List.flatMap_append, List.flatMap_cons, closersAfter_append, hindented,
      b.closersAfter_opening, Option.bind_some, closersAfter_append, ihbody, Option.bind_some,
      closersAfter_append, hindented, b.closersAfter_closing, Option.bind_some, ihrest]

/-- No line is empty, and none has a line break. -/
theorem ne_empty_and_not_mem (h : LaidOut depth lines) :
    ∀ line ∈ lines, line ≠ "" ∧ '\n' ∉ line.toList := by
  have hline (depth : Nat) {text : String} {closers opened : List Char} (hne : text.toList ≠ [])
      (hclosers : closersAfter closers text.toList = some opened) :
      indentation depth ++ text ≠ "" ∧ '\n' ∉ (indentation depth ++ text).toList := by
    rw [ne_eq, ← String.toList_inj, String.toList_append, List.mem_append, not_or]
    exact ⟨List.append_ne_nil_of_right_ne_nil _ hne,
      not_mem_of_closersAfter (closed_indentation depth []), not_mem_of_closersAfter hclosers⟩
  induction h with
  | nil _ => exact fun _ hmem => absurd hmem List.not_mem_nil
  | line h _ ih =>
    obtain ⟨c, rest, hhead, -⟩ := h.head
    exact List.forall_mem_cons.2 ⟨hline _ (by simp [hhead]) (h.closed []), ih⟩
  | @block depth _ _ b _ _ ihbody ihrest =>
    have hopening := hline depth b.opening_ne_nil (b.closersAfter_opening [])
    have hclosing := hline depth b.closing_ne_nil (b.closersAfter_closing [])
    exact List.forall_mem_cons.2 ⟨hopening, List.forall_mem_append.2
      ⟨ihbody, List.forall_mem_cons.2 ⟨hclosing, ihrest⟩⟩⟩

/-- What is laid out can stand in a block. -/
theorem indented (h : LaidOut depth lines) : LaidOut (depth + 1) (indented lines) := by
  have hdeeper (depth : Nat) (text : String) :
      "  " ++ (indentation depth ++ text) = indentation (depth + 1) ++ text :=
    String.append_assoc.symm
  -- No line is empty, so none is left where it is.
  rw [indented_eq_map fun line hline => (h.ne_empty_and_not_mem line hline).1]
  induction h with
  | nil _ => exact .nil _
  | line h _ ih =>
    rw [List.map_cons, hdeeper]
    exact .line h ih
  | block b _ _ ihbody ihrest =>
    rw [List.map_cons, List.map_append, List.map_cons, hdeeper, hdeeper]
    exact .block b ihbody ihrest

theorem singleton {text : String} (h : LineText text) : LaidOut 0 [text] := by
  have hline := LaidOut.line h (.nil 0)
  rwa [indentation, String.empty_append] at hline

/-- Lines that close what they open stand side by side. -/
theorem of_forall_lineText : ∀ {lines : List String}, (∀ line ∈ lines, LineText line) →
    LaidOut 0 lines
  | [], _ => .nil 0
  | first :: _, h =>
    (singleton (h first List.mem_cons_self)).append
      (of_forall_lineText fun other hother => h other (List.mem_cons_of_mem _ hother))

/-- A block stands around indented lines, which makes them one level deeper. None of these lines is
    empty, so that all of them are indented. -/
theorem of_block (b : Block) (h : LaidOut 0 lines) :
    LaidOut 0 (b.opening :: (Swift.indented lines ++ [b.closing])) := by
  have hblock := LaidOut.block b h.indented (.nil 0)
  rwa [indentation, String.empty_append, String.empty_append] at hblock

end LaidOut

namespace Statement

/-- The size of a mask is all that varies on the lines of its context. -/
theorem lineText_maskContextLines (size : Size Literal) :
    ∀ line ∈ (maskContextLines size).map Line.text, LineText line := by
  refine List.forall_mem_map.2 (List.forall_mem_cons.2 ⟨⟨fun closers => ?_,
    (Piece.Starts.constant _).head _⟩, List.forall_mem_cons.2 ⟨⟨Call.closed_line _
      (List.forall_mem_nil _), (Piece.Starts.reference _).head _⟩, List.forall_mem_singleton.2
        ⟨Call.closed_line _ (List.forall_mem_nil _), (Piece.Starts.reference _).head _⟩⟩⟩)
  simp only [Line.toList_text_cons, Piece.text, String.toList_append, toString_string,
    Block.toList_toString_name, Literal.toList_toString, closersAfter_append, closed_literal,
    closed_name]
  rfl

theorem lineText_maskImageLine : LineText maskImageLine.text := by
  refine ⟨fun closers => ?_, 'r', _, rfl, by decide⟩
  simp only [maskImageLine, Line.toList_text_cons, Piece.text, closersAfter_append, closed_name]
  rfl

/-- Each argument of a pattern is a line by itself. -/
theorem lineText_patternArgumentLines (k : Nat) (tile : Rect Literal) :
    ∀ line ∈ (patternArgumentLines k tile).map Line.text, LineText line := by
  refine List.forall_mem_map.2 fun line hline => ?_
  simp only [patternArgumentLines, List.mem_cons, List.not_mem_nil, or_false] at hline
  rcases hline with rfl | rfl | rfl | rfl | rfl | rfl | rfl | rfl
  all_goals
    constructor
    · intro closers
      simp only [Line.toList_text_cons, Piece.text, String.toList_append, toString_string,
        Literal.toList_toString, closersAfter_append, closed_literal, closed_name, closed_rectText]
      rfl
    · simp only [Line.toList_text_cons, Piece.text, String.toList_append, toString_string,
        List.append_assoc]
      exact ⟨_, _, rfl, by decide⟩

/-- The block that a statement opens. -/
def block? : Statement → Option Block
  | mask k _ _ => some (.mask k)
  | patternDraw k _ => some (.patternDraw k)
  | pattern k _ => some (.pattern k)
  | _ => none

/-- A statement with a block has the opening of the block as its first line. -/
theorem text_opening {s : Statement} {b : Block} (h : s.block? = some b) :
    Line.text (s.subject :: s.predicate) = b.opening := by
  cases s with
  | mask _ _ _ | patternDraw _ _ | pattern _ _ =>
    cases h
    rw [← String.toList_inj]
    delta Block.opening
    simp only [subject, predicate, code, firstLine, List.tail_cons, Line.toList_text_cons,
      Piece.text, String.toList_append, toString_string, Block.toList_toString_name,
      List.append_assoc]
    rfl
  | _ => cases h

/-- Without a block, a statement closes what it opens on its first line, if its texts do. -/
theorem closed_text {s : Statement} (hblock : s.block? = none)
    (h : ∀ text ∈ s.texts, Closed text.toList) :
    Closed (Line.text (s.subject :: s.predicate)).toList := by
  intro closers
  cases s with
  | mask _ _ _ | patternDraw _ _ | pattern _ _ => cases hblock
  | call c => exact c.closed_line h closers
  | image k picture =>
    have hpicture := h picture.base64 List.mem_cons_self
    simp only [subject, predicate, code, firstLine, List.tail_cons, Line.toList_text_cons,
      Piece.text, String.toList_append, toString_string, Block.toList_toString_name,
      closersAfter_append, closed_name, hpicture]
    rfl
  | _ =>
    simp only [subject, predicate, code, firstLine, List.tail_cons, Line.toList_text_cons,
      Line.text_append, Piece.text, String.toList_append, toString_string,
      Block.toList_toString_name, closersAfter_append, closed_name, closed_spaceText,
      closed_matrixText, closed_literals, Color.closed_line, PathStep.closed_text, closed_colors,
      List.cons_append]
    rfl

/-- The lines of a statement are laid out, if the texts in it close what they open, and the lines of
    the statements inside it are laid out. -/
theorem laidOut_lines (s : Statement) (htexts : ∀ text ∈ s.texts, Closed text.toList)
    (hinner : LaidOut 0 (Code.allLines (allCode s.inner))) : LaidOut 0 s.lines := by
  rw [lines_eq]
  cases s with
  | mask k size body =>
    have hbody := ((LaidOut.of_forall_lineText (lineText_maskContextLines size)).append
      hinner).append (.singleton lineText_maskImageLine)
    rw [text_opening rfl, tail_lines_mask, ← List.append_assoc]
    exact hbody.of_block (.mask k)
  | patternDraw k body =>
    rw [text_opening rfl, tail_lines_patternDraw]
    exact hinner.of_block (.patternDraw k)
  | pattern k tile =>
    rw [text_opening rfl, tail_lines_pattern]
    exact (LaidOut.of_forall_lineText (lineText_patternArgumentLines k tile)).of_block (.pattern k)
  | _ => exact .singleton ⟨closed_text rfl htexts, (starts_subject _).head _⟩

/-- Statements are laid out one after the other. -/
theorem laidOut_allCode {ss : List Statement} (h : ∀ s ∈ ss, LaidOut 0 s.lines) :
    LaidOut 0 (Code.allLines (allCode ss)) := by
  induction ss with
  | nil => exact .nil 0
  | cons s rest ih =>
    obtain ⟨hs, hrest⟩ := List.forall_mem_cons.1 h
    rw [allLines_cons]
    exact hs.append (ih hrest)

end Statement

/-! ## Statements of commands -/

/-- The statement has no text from outside, and no statements inside. -/
structure Statement.Silent (s : Statement) : Prop where
  texts : s.texts = []
  inner : s.inner = []

/-- With no text from outside and no statements inside, nothing is to be assumed. -/
theorem Statement.Silent.laidOut {s : Statement} (h : s.Silent) : LaidOut 0 s.lines := by
  refine s.laidOut_lines ?_ ?_
  · rw [h.texts]
    exact List.forall_mem_nil _
  · rw [h.inner]
    exact .nil 0

/-- What is declared here is made of names and numbers. -/
theorem Statement.IsDeclaration.silent {s : Statement} (h : s.IsDeclaration) : s.Silent := by
  cases s with
  | space | patternAlpha | color | path | extendPath | transform | locations | gradient =>
    exact ⟨rfl, rfl⟩
  | _ => exact h.elim

section Statements

open Tables

variable (t : Tables)

/-- The text of an image is put between quotes as it is. -/
theorem laidOut_declareImage {i : Image} (hi : Closed i.base64.toList) :
    ∀ s ∈ t.declareImage i, LaidOut 0 s.lines := by
  rw [declareImage]
  split
  · exact List.forall_mem_nil _
  · exact List.forall_mem_singleton.2
      (Statement.laidOut_lines _ (List.forall_mem_singleton.2 hi) (.nil 0))

/-- The lines of a command are laid out, if its texts close what they open, and the lines of the
    scope inside it are laid out. -/
theorem laidOut_body_output {c : DrawingCommand resources} (htexts : TextsClosed c)
    (hscope : LaidOut 0 (Code.allLines
      (Statement.allCode (scope (drawAll (DrawingCommand.inner c)))))) :
    ∀ s ∈ (t.output (drawCommand c)).body, LaidOut 0 s.lines := by
  have hdeclared {declarations calls : List Statement} (h : ∀ s ∈ declarations, s.IsDeclaration)
      (hcalls : ∀ s ∈ calls, LaidOut 0 s.lines) : ∀ s ∈ declarations ++ calls, LaidOut 0 s.lines :=
    List.forall_mem_append.2 ⟨fun s hs => (h s hs).silent.laidOut, hcalls⟩
  -- A call has no other texts than its command.
  have hcall {call : Call} (h : call.texts ⊆ DrawingCommand.texts c) :
      LaidOut 0 (Statement.call call).lines :=
    Statement.laidOut_lines _ (fun text htext => htexts text (h htext)) (.nil 0)
  have hnone {call : Call} (h : call.texts = []) : LaidOut 0 (Statement.call call).lines :=
    hcall (h ▸ List.nil_subset _)
  match c with
  | .push _ | .pop _ | .set (.lineWidth _) | .set (.miterLimit _) | .set (.alpha _)
  | .transform (.translate _ _) | .transform (.scale _ _) | .transform (.rotate _) =>
    exact List.forall_mem_singleton.2 (hnone rfl)
  | .set (.lineCap _) | .set (.lineJoin _) | .set (.blendMode _) =>
    exact List.forall_mem_singleton.2 (hcall (List.Subset.refl _))
  | .transform (.matrix m) =>
    exact hdeclared (t.isDeclaration_declareMatrix m) (List.forall_mem_singleton.2 (hnone rfl))
  | .set (.fill color) | .set (.stroke color) =>
    exact hdeclared (t.isDeclaration_declareColor color) (List.forall_mem_singleton.2 (hnone rfl))
  | .set (.fillPattern _) =>
    exact hdeclared (t.isDeclaration_declareSpace .pattern)
      (List.forall_mem_cons.2 ⟨hnone rfl, List.forall_mem_singleton.2 (hnone rfl)⟩)
  | .set (.clipMask (.of _ _) _) =>
    exact List.forall_mem_cons.2 ⟨Statement.laidOut_lines _ (List.forall_mem_nil _) hscope,
      List.forall_mem_singleton.2 (hnone rfl)⟩
  | .set (.clip p _) | .mark (.fill p _) =>
    exact hdeclared (t.isDeclaration_declarePath p) (List.forall_mem_cons.2
      ⟨hnone rfl, List.forall_mem_singleton.2 (hcall (List.Subset.refl _))⟩)
  | .mark (.stroke p) =>
    exact hdeclared (t.isDeclaration_declarePath p)
      (List.forall_mem_cons.2 ⟨hnone rfl, List.forall_mem_singleton.2 (hnone rfl)⟩)
  | .mark (.image i _) =>
    exact List.forall_mem_append.2 ⟨laidOut_declareImage t (htexts i.base64 List.mem_cons_self),
      List.forall_mem_singleton.2 (hnone rfl)⟩
  | .mark (.linearGradient g _ _) | .mark (.radialGradient g _ _ _ _) =>
    exact hdeclared (t.isDeclaration_declareGradient g) (List.forall_mem_singleton.2 (hnone rfl))

/-- The declaration of a pattern is laid out, if the lines of its scope are. -/
theorem laidOut_declarePattern {p : Pattern resources}
    (hscope : LaidOut 0 (Code.allLines (Statement.allCode (scope (drawAll p.contents))))) :
    ∀ s ∈ t.declarePattern (drawPattern p), LaidOut 0 s.lines := by
  rw [declarePattern]
  split
  · exact List.forall_mem_nil _
  · rw [← body_drawPattern] at hscope
    refine List.forall_mem_cons.2 ⟨Statement.laidOut_lines _ (List.forall_mem_nil _) hscope, ?_⟩
    exact List.forall_mem_cons.2 ⟨Statement.Silent.laidOut ⟨rfl, rfl⟩,
      List.forall_mem_singleton.2 (Statement.Silent.laidOut ⟨rfl, rfl⟩)⟩

end Statements

/-! ## Streams -/

/-- The lines of the statements are laid out, whichever commands they come from. -/
def LaysOut (_ : Tables) (ss : List Statement) (_ : Drawing resources) (_ : Tables) : Prop :=
  LaidOut 0 (Code.allLines (Statement.allCode ss))

/-- Commands lay out their lines one after the other. -/
theorem composes_laysOut : Composes LaysOut where
  nil _ := .nil 0
  append h h' := by
    rw [LaysOut, Statement.allCode_append, Code.allLines_append]
    exact h.append h'

/-- Preamble and body of a stream are laid out together. -/
theorem laidOut_outputAll {commands : Drawing resources}
    (h : ∀ c ∈ commands, Follows LaysOut c) :
    LaidOut 0 (Code.allLines
      (Statement.allCode (Tables.outputAll {} (drawAll commands)).statements)) := by
  obtain ⟨hpreamble, hbody⟩ := composes_laysOut.output h
  exact composes_laysOut.append hpreamble hbody

/-- The lines of a command are laid out, by induction on the streams inside it. -/
theorem follows_laysOut {c : DrawingCommand resources}
    (h : DrawingCommand.Everywhere TextsClosed c) : Follows LaysOut c := by
  refine follows_of_everywhere (fun c htexts hinner => ?_) h
  have hscope := laidOut_outputAll hinner
  rw [← scope_drawAll] at hscope
  refine composes_laysOut.follows c (fun p hc t => ?_) fun t _ => ?_
  · subst hc
    exact Statement.laidOut_allCode (laidOut_declarePattern _ hscope)
  · exact Statement.laidOut_allCode (laidOut_body_output t htexts hscope)

/-- Whatever is rendered, the lines are laid out, if all texts in the commands close what they
    open. -/
theorem laidOut_lines_foldl_render (renders : List (Drawing resources))
    (h : ∀ commands ∈ renders, ∀ c ∈ commands, DrawingCommand.Everywhere TextsClosed c) :
    LaidOut 0 (renders.foldl Rendering.render {}).lines := by
  rw [foldl_render]
  refine laidOut_outputAll fun c hc => ?_
  obtain ⟨commands, hcommands, hc⟩ := List.mem_flatten.1 hc
  exact follows_laysOut (h commands hcommands c hc)

end SceneCode.Swift
