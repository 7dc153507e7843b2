import SceneCode.Proofs.Readable
import SceneCode.Proofs.Removal

/-!
# Statements are determined by their lines

The name that is declared or used at the start of a line, and how, tells what sort of statement it
is and which index it has (`Statement.subject`). The rest of the line gives what else the statement
is made of; calls are told apart by the text up to their first argument (`Call.head`).

Statements may have more lines than one. Those of a closure are indented, and the line that closes
it is not, so the lines inside can be told from those after it.

* `Statement.allLines_injective`: different statements have different lines.
-/

namespace SceneCode.Swift

/-! ## Calls -/

namespace Call

/-- The texts of calls up to the first argument. -/
def heads : List String :=
  ["saveGState()", "beginTransparencyLayer(auxiliaryInfo: nil)", "restoreGState()",
    "endTransparencyLayer()", "concatenate(", "translateBy(x: ", "scaleBy(x: ", "rotate(by: ",
    "setFillColor(", "setFillColorSpace(", "setFillPattern(", "setStrokeColor(", "setLineWidth(",
    "setLineCap(", "setLineJoin(", "setMiterLimit(", "setAlpha(", "setBlendMode(", "addPath(",
    "clip(using: ", "clip(to: ", "strokePath()", "fillPath(using: ", "draw(",
    "drawLinearGradient(", "drawRadialGradient("]

/-- The place of a call's head among all heads. -/
def place : Call → Nat
  | push .state => 0
  | push .layer => 1
  | pop .state => 2
  | pop .layer => 3
  | transform (.matrix _) => 4
  | transform (.translate _ _) => 5
  | transform (.scale _ _) => 6
  | transform (.rotate _) => 7
  | setFillColor _ => 8
  | setFillColorSpace _ => 9
  | setFillPattern _ => 10
  | setStrokeColor _ => 11
  | setLineWidth _ => 12
  | setLineCap _ => 13
  | setLineJoin _ => 14
  | setMiterLimit _ => 15
  | setAlpha _ => 16
  | setBlendMode _ => 17
  | addPath _ => 18
  | clip _ => 19
  | clipToMask _ _ => 20
  | strokePath => 21
  | fillPath _ => 22
  | drawImage _ _ => 23
  | drawLinearGradient _ _ _ => 24
  | drawRadialGradient _ _ _ _ _ => 25

/-- The text up to the first argument. -/
def head (c : Call) : List Char := (heads.getD c.place "").toList

/-- The text of a numbered name. -/
def nameChars (family : Family) (k : Nat) : List Char := (Name.numbered family k).text.toList

/-- The end of a call that draws a gradient. -/
def optionsChars : List Char := ", options: ".toList ++ (gradientOptions.toList ++ [')'])

/-- The end of a call that sets a pattern. -/
def alphaChars : List Char := ", colorComponents: &patternAlpha)".toList

/-- The text after the head. -/
def arguments : Call → List Char
  | transform (.matrix k) => nameChars .transform k ++ [')']
  | transform (.translate dx dy) => dx.chars ++ (", y: ".toList ++ dy.chars) ++ [')']
  | transform (.scale sx sy) => sx.chars ++ (", y: ".toList ++ sy.chars) ++ [')']
  | transform (.rotate angle) => angle.chars ++ [')']
  | setFillColor k => nameChars .color k ++ [')']
  | setFillColorSpace s => (Name.space s).text.toList ++ [')']
  | setFillPattern k => nameChars .pattern k ++ alphaChars
  | setStrokeColor k => nameChars .color k ++ [')']
  | setLineWidth width => width.chars ++ [')']
  | setLineCap cap => cap.toList ++ [')']
  | setLineJoin join => join.toList ++ [')']
  | setMiterLimit limit => limit.chars ++ [')']
  | setAlpha alpha => alpha.chars ++ [')']
  | setBlendMode mode => mode.toList ++ [')']
  | addPath k => nameChars .path k ++ [')']
  | clip rule => rule.toList ++ [')']
  | clipToMask frame k =>
    (rectText frame).toList ++ (", mask: ".toList ++ nameChars .mask k) ++ [')']
  | fillPath rule => rule.toList ++ [')']
  | drawImage k frame => nameChars .image k ++ (", in: ".toList ++ (rectText frame).toList) ++ [')']
  | drawLinearGradient k start stop =>
    nameChars .gradient k ++ (", start: ".toList ++ ((pointText start).toList ++
      (", end: ".toList ++ (pointText stop).toList))) ++ optionsChars
  | drawRadialGradient k startCenter startRadius endCenter endRadius =>
    nameChars .gradient k ++ (", startCenter: ".toList ++ ((pointText startCenter).toList ++
      (", startRadius: ".toList ++ (startRadius.chars ++
        (", endCenter: ".toList ++ ((pointText endCenter).toList ++
          (", endRadius: ".toList ++ endRadius.chars))))))) ++ optionsChars
  | _ => []

theorem toList_text_suffix (c : Call) : (Line.text c.suffix).toList = c.head ++ c.arguments := by
  -- Brackets and steps of transformation are printed by their kinds.
  obtain (_ | _) | (_ | _) | (_ | _ | _ | _) | _ := c
  all_goals
    delta suffix
    simp only [Line.toList_text_cons, Piece.text, arguments, String.toList_append,
      List.append_assoc, Literal.toList_toString]
    rfl

/-- Calls, one case for each head. -/
@[elab_as_elim]
theorem cases_head {motive : Call → Prop} (pushState : motive (push .state))
    (pushLayer : motive (push .layer)) (popState : motive (pop .state))
    (popLayer : motive (pop .layer)) (matrix : ∀ k, motive (transform (.matrix k)))
    (translate : ∀ dx dy, motive (transform (.translate dx dy)))
    (scale : ∀ sx sy, motive (transform (.scale sx sy)))
    (rotate : ∀ angle, motive (transform (.rotate angle)))
    (setFillColor : ∀ k, motive (setFillColor k))
    (setFillColorSpace : ∀ s, motive (setFillColorSpace s))
    (setFillPattern : ∀ k, motive (setFillPattern k))
    (setStrokeColor : ∀ k, motive (setStrokeColor k))
    (setLineWidth : ∀ width, motive (setLineWidth width))
    (setLineCap : ∀ cap, motive (setLineCap cap))
    (setLineJoin : ∀ join, motive (setLineJoin join))
    (setMiterLimit : ∀ limit, motive (setMiterLimit limit))
    (setAlpha : ∀ alpha, motive (setAlpha alpha))
    (setBlendMode : ∀ mode, motive (setBlendMode mode)) (addPath : ∀ k, motive (addPath k))
    (clip : ∀ rule, motive (clip rule)) (clipToMask : ∀ frame k, motive (clipToMask frame k))
    (strokePath : motive strokePath) (fillPath : ∀ rule, motive (fillPath rule))
    (drawImage : ∀ k frame, motive (drawImage k frame))
    (drawLinearGradient : ∀ k start stop, motive (drawLinearGradient k start stop))
    (drawRadialGradient : ∀ k startCenter startRadius endCenter endRadius,
      motive (drawRadialGradient k startCenter startRadius endCenter endRadius))
    (c : Call) : motive c := by
  obtain (_ | _) | (_ | _) | (_ | _ | _ | _) | _ := c
  all_goals apply_assumption

/-- Within a family, a name can be read off the start of a text. -/
theorem readable_nameChars (family : Family) : Readable (nameChars family) :=
  readable_name.comp fun _ _ h => (Name.numbered.inj h).2

/-- No head is the start of another one. -/
theorem eq_of_isPrefixOf_heads : ∀ i < heads.length, ∀ j < heads.length,
    (heads.getD i "").toList.isPrefixOf (heads.getD j "").toList = true → i = j := by
  decide +kernel

theorem place_lt (c : Call) : c.place < heads.length := by
  cases c using cases_head <;> exact Nat.le_of_ble_eq_true rfl

/-- As no head is the start of another one, a text tells with which head it starts, and what comes
    after that. -/
theorem head_inj {c d : Call} {u v : List Char} (h : c.head ++ u = d.head ++ v) :
    c.place = d.place ∧ u = v := by
  have hplace : c.place = d.place := by
    rcases List.prefix_or_prefix_of_prefix (List.prefix_append c.head u)
      (h ▸ List.prefix_append d.head v) with hprefix | hprefix
    · have hstart := List.isPrefixOf_iff_prefix.2 hprefix
      exact eq_of_isPrefixOf_heads _ c.place_lt _ d.place_lt hstart
    · have hstart := List.isPrefixOf_iff_prefix.2 hprefix
      exact (eq_of_isPrefixOf_heads _ d.place_lt _ c.place_lt hstart).symm
  have hhead : c.head = d.head := congrArg (fun i => (heads.getD i "").toList) hplace
  rw [hhead] at h
  exact ⟨hplace, List.append_cancel_left h⟩

/-- Different calls are printed differently: the head gives the kind of call, and each argument ends
    where the text says so. -/
theorem suffix_text_injective : Function.Injective fun c : Call => Line.text c.suffix := by
  intro c d h
  have htexts : c.head ++ c.arguments = d.head ++ d.arguments := by
    rw [← toList_text_suffix, ← toList_text_suffix]
    exact congrArg String.toList h
  obtain ⟨hplace, harguments⟩ := head_inj htexts
  have hend : EndsWord [')'] := .inr rfl
  have hoptions : EndsWord optionsChars := .of_separates rfl _
  have hlengths := readable_literal.pair (c := ", y: ".toList) rfl readable_literal
  cases c using cases_head with
  | pushState =>
    cases d using cases_head with
    | pushState => rfl
    | _ => cases hplace
  | pushLayer =>
    cases d using cases_head with
    | pushLayer => rfl
    | _ => cases hplace
  | popState =>
    cases d using cases_head with
    | popState => rfl
    | _ => cases hplace
  | popLayer =>
    cases d using cases_head with
    | popLayer => rfl
    | _ => cases hplace
  | matrix k =>
    cases d using cases_head with
    | matrix k' => rw [(readable_nameChars .transform hend hend harguments).1]
    | _ => cases hplace
  | translate dx dy =>
    cases d using cases_head with
    | translate dx' dy' =>
      have heq := (hlengths (a := (dx, dy)) (b := (dx', dy')) hend hend
        harguments).1
      cases heq
      rfl
    | _ => cases hplace
  | scale sx sy =>
    cases d using cases_head with
    | scale sx' sy' =>
      have heq := (hlengths (a := (sx, sy)) (b := (sx', sy')) hend hend
        harguments).1
      cases heq
      rfl
    | _ => cases hplace
  | rotate angle =>
    cases d using cases_head with
    | rotate angle' => rw [(readable_literal hend hend harguments).1]
    | _ => cases hplace
  | setFillColor k =>
    cases d using cases_head with
    | setFillColor k' =>
      rw [(readable_nameChars .color hend hend harguments).1]
    | _ => cases hplace
  | setFillColorSpace s =>
    cases d using cases_head with
    | setFillColorSpace s' =>
      cases (readable_name hend hend harguments).1
      rfl
    | _ => cases hplace
  | setFillPattern k =>
    cases d using cases_head with
    | setFillPattern k' =>
      have halpha : EndsWord alphaChars := .inr rfl
      rw [(readable_nameChars .pattern halpha halpha harguments).1]
    | _ => cases hplace
  | setStrokeColor k =>
    cases d using cases_head with
    | setStrokeColor k' =>
      rw [(readable_nameChars .color hend hend harguments).1]
    | _ => cases hplace
  | setLineWidth width =>
    cases d using cases_head with
    | setLineWidth width' => rw [(readable_literal hend hend harguments).1]
    | _ => cases hplace
  | setLineCap cap =>
    cases d using cases_head with
    | setLineCap cap' =>
      rw [String.toList_inj.1 (List.append_cancel_right harguments)]
    | _ => cases hplace
  | setLineJoin join =>
    cases d using cases_head with
    | setLineJoin join' =>
      rw [String.toList_inj.1 (List.append_cancel_right harguments)]
    | _ => cases hplace
  | setMiterLimit limit =>
    cases d using cases_head with
    | setMiterLimit limit' => rw [(readable_literal hend hend harguments).1]
    | _ => cases hplace
  | setAlpha alpha =>
    cases d using cases_head with
    | setAlpha alpha' => rw [(readable_literal hend hend harguments).1]
    | _ => cases hplace
  | setBlendMode mode =>
    cases d using cases_head with
    | setBlendMode mode' =>
      rw [String.toList_inj.1 (List.append_cancel_right harguments)]
    | _ => cases hplace
  | addPath k =>
    cases d using cases_head with
    | addPath k' => rw [(readable_nameChars .path hend hend harguments).1]
    | _ => cases hplace
  | clip rule =>
    cases d using cases_head with
    | clip rule' =>
      rw [String.toList_inj.1 (List.append_cancel_right harguments)]
    | _ => cases hplace
  | clipToMask frame k =>
    cases d using cases_head with
    | clipToMask frame' k' =>
      have hmask := readable_rectText.pair (c := ", mask: ".toList) rfl (readable_nameChars .mask)
      have heq := (hmask (a := (frame, k)) (b := (frame', k')) hend hend
        harguments).1
      cases heq
      rfl
    | _ => cases hplace
  | strokePath =>
    cases d using cases_head with
    | strokePath => rfl
    | _ => cases hplace
  | fillPath rule =>
    cases d using cases_head with
    | fillPath rule' =>
      rw [String.toList_inj.1 (List.append_cancel_right harguments)]
    | _ => cases hplace
  | drawImage k frame =>
    cases d using cases_head with
    | drawImage k' frame' =>
      have himage := (readable_nameChars .image).pair (c := ", in: ".toList) rfl readable_rectText
      have heq := (himage (a := (k, frame)) (b := (k', frame')) hend hend
        harguments).1
      cases heq
      rfl
    | _ => cases hplace
  | drawLinearGradient k start stop =>
    cases d using cases_head with
    | drawLinearGradient k' start' stop' =>
      have hgradient := (readable_nameChars .gradient).pair (c := ", start: ".toList) rfl
        (readable_pointText.pair (c := ", end: ".toList) rfl readable_pointText)
      have heq := (hgradient (a := (k, start, stop)) (b := (k', start', stop')) hoptions hoptions
        harguments).1
      cases heq
      rfl
    | _ => cases hplace
  | drawRadialGradient k startCenter startRadius endCenter endRadius =>
    cases d using cases_head with
    | drawRadialGradient k' startCenter' startRadius' endCenter' endRadius' =>
      have hgradient := (readable_nameChars .gradient).pair (c := ", startCenter: ".toList) rfl
        (readable_pointText.pair (c := ", startRadius: ".toList) rfl
          (readable_literal.pair (c := ", endCenter: ".toList) rfl
            (readable_pointText.pair (c := ", endRadius: ".toList) rfl readable_literal)))
      have heq := (hgradient (a := (k, startCenter, startRadius, endCenter, endRadius))
        (b := (k', startCenter', startRadius', endCenter', endRadius')) hoptions hoptions
        harguments).1
      cases heq
      rfl
    | _ => cases hplace

end Call

/-! ## Indented lines -/

theorem spaces_append_ne_empty (line : String) : "  " ++ line ≠ "" := by
  intro h
  have hchars := congrArg String.toList h
  rw [String.toList_append] at hchars
  cases hchars

theorem indent_of_ne_empty {line : String} (h : line ≠ "") : indent line = "  " ++ line := if_neg h

/-- Where no line is empty, all of them are moved. -/
theorem indented_eq_map {lines : List String} (h : ∀ line ∈ lines, line ≠ "") :
    indented lines = lines.map ("  " ++ ·) :=
  List.map_congr_left fun line hline => indent_of_ne_empty (h line hline)

/-- A line that is empty stays empty, and every other one is longer than before. -/
theorem indent_injective : Function.Injective indent := by
  intro line line' h
  by_cases hline : line = "" <;> by_cases hline' : line' = ""
  · rw [hline, hline']
  · rw [hline, indent_of_ne_empty hline'] at h
    exact absurd h.symm (spaces_append_ne_empty line')
  · rw [hline', indent_of_ne_empty hline] at h
    exact absurd h (spaces_append_ne_empty line)
  · rw [indent_of_ne_empty hline, indent_of_ne_empty hline'] at h
    exact (String.append_right_inj _).1 h

/-- The lines of a closure end at the first one that is not indented. -/
theorem indented_append_inj {first second us vs : List String} {closing : String}
    (hclosing : ∀ line, closing ≠ indent line)
    (h : indented first ++ closing :: us = indented second ++ closing :: vs) :
    first = second ∧ us = vs := by
  induction first generalizing second with
  | nil =>
    cases second with
    | nil => exact ⟨rfl, (List.cons.inj h).2⟩
    | cons line second => exact absurd (List.cons.inj h).1 (hclosing line)
  | cons line first ih =>
    cases second with
    | nil => exact absurd (List.cons.inj h).1.symm (hclosing line)
    | cons line' second =>
      obtain ⟨hline, hrest⟩ := List.cons.inj h
      obtain ⟨rfl, huv⟩ := ih hrest
      rw [indent_injective hline]
      exact ⟨rfl, huv⟩

/-- A text that starts with anything but a space is no indented line. -/
theorem closing_ne (closing : String) (h : closing.toList.head?.any (· ≠ ' ') = true)
    (line : String) : closing ≠ indent line := by
  rintro rfl
  rw [indent] at h
  split at h
  · cases h
  · rw [String.toList_append] at h
    cases h

/-! ## First lines -/

/-- The text starts with a character that ends a name. -/
def endsName : List Char → Bool
  | [] => false
  | c :: _ => !c.isAlphanum

section Subjects

variable {u v : List Char} (hu : endsName u = true) (hv : endsName v = true)
include hu hv

/-- A word ends at the first character that is not a letter or a digit. -/
theorem takeWhile_isAlphanum_inj {w w' : List Char} (hw : ∀ c ∈ w, c.isAlphanum = true)
    (hw' : ∀ c ∈ w', c.isAlphanum = true) (h : w ++ u = w' ++ v) : w = w' ∧ u = v := by
  have hends {u : List Char} (hu : endsName u = true) : ∀ c ∈ u.head?, c.isAlphanum = false := by
    cases u with
    | nil => cases hu
    | cons c u => simpa [endsName] using hu
  have htake := congrArg (·.takeWhile Char.isAlphanum) h
  rw [takeWhile_append_of_ends hw (hends hu), takeWhile_append_of_ends hw' (hends hv)] at htake
  rw [htake] at h
  exact ⟨htake, List.append_cancel_left h⟩

/-- Where names end, the text tells them apart. -/
theorem Name.text_append_inj {m n : Name} (h : m.text.toList ++ u = n.text.toList ++ v) :
    m = n ∧ u = v := by
  obtain ⟨htext, huv⟩ :=
    takeWhile_isAlphanum_inj hu hv m.isAlphanum_of_mem_text n.isAlphanum_of_mem_text h
  exact ⟨Name.text_injective (String.toList_inj.1 htext), huv⟩

end Subjects

/-- No name is a keyword. -/
theorem Name.toList_text_ne (n : Name) :
    n.text.toList ≠ "let".toList ∧ n.text.toList ≠ "var".toList := by
  have hletters : n.letters.toList ≠ "let".toList ∧ n.letters.toList ≠ "var".toList := by
    cases n with
    | numbered family _ =>
      have hbase (family : Family) :
          family.base.toList ≠ "let".toList ∧ family.base.toList ≠ "var".toList := by
        cases family <;> decide
      exact hbase family
    | space s => cases s <;> decide
    | patternAlpha | context => decide
  rw [← n.takeWhile_text] at hletters
  refine ⟨fun h => hletters.1 ?_, fun h => hletters.2 ?_⟩ <;> rw [h] <;> decide

namespace Piece

/-- The pieces with which lines start. -/
inductive Starts : Piece → Prop
  | constant (n : Name) : Starts (.constant n)
  | assignable (n : Name) : Starts (.assignable n)
  | reference (n : Name) : Starts (.reference n)

theorem toList_text_constant (n : Name) :
    (constant n).text.toList = "let ".toList ++ n.text.toList :=
  String.toList_append

theorem toList_text_assignable (n : Name) :
    (assignable n).text.toList = "var ".toList ++ n.text.toList :=
  String.toList_append

/-- From the start of a line we can read what is done with a name, and which name it is: neither
    keyword is a name. -/
theorem text_append_inj {p q : Piece} (hp : p.Starts) (hq : q.Starts) {u v : List Char}
    (hu : endsName u = true) (hv : endsName v = true)
    (h : p.text.toList ++ u = q.text.toList ++ v) : p = q ∧ u = v := by
  have hkeyword {word : List Char} (hword : ∀ c ∈ word, c.isAlphanum = true) {n : Name}
      (hn : n.text.toList ≠ word) (rest u : List Char) (hu : endsName u = true) :
      n.text.toList ++ u ≠ word ++ (' ' :: rest) := fun h =>
    hn (takeWhile_isAlphanum_inj hu rfl n.isAlphanum_of_mem_text hword h).1
  cases hp with
  | constant m =>
    rw [toList_text_constant] at h
    cases hq with
    | constant n =>
      rw [toList_text_constant, List.append_assoc, List.append_assoc] at h
      obtain ⟨rfl, huv⟩ := Name.text_append_inj hu hv (List.append_cancel_left h)
      exact ⟨rfl, huv⟩
    | assignable n =>
      rw [toList_text_assignable, List.append_assoc, List.append_assoc] at h
      exact absurd h (ne_of_heads rfl rfl)
    | reference n =>
      exact absurd h.symm (hkeyword (List.all_eq_true.1 rfl) n.toList_text_ne.1 _ _ hv)
  | assignable m =>
    rw [toList_text_assignable] at h
    cases hq with
    | constant n =>
      rw [toList_text_constant, List.append_assoc, List.append_assoc] at h
      exact absurd h (ne_of_heads rfl rfl)
    | assignable n =>
      rw [toList_text_assignable, List.append_assoc, List.append_assoc] at h
      obtain ⟨rfl, huv⟩ := Name.text_append_inj hu hv (List.append_cancel_left h)
      exact ⟨rfl, huv⟩
    | reference n =>
      exact absurd h.symm (hkeyword (List.all_eq_true.1 rfl) n.toList_text_ne.2 _ _ hv)
  | reference m =>
    cases hq with
    | constant n =>
      rw [toList_text_constant] at h
      exact absurd h (hkeyword (List.all_eq_true.1 rfl) m.toList_text_ne.1 _ _ hu)
    | assignable n =>
      rw [toList_text_assignable] at h
      exact absurd h (hkeyword (List.all_eq_true.1 rfl) m.toList_text_ne.2 _ _ hu)
    | reference n =>
      obtain ⟨rfl, huv⟩ := Name.text_append_inj hu hv h
      exact ⟨rfl, huv⟩

end Piece

namespace Statement

/-- The name at the start of a statement, and what is done with it. -/
def subject : Statement → Piece
  | space s => .constant (.space s)
  | patternAlpha => .assignable .patternAlpha
  | color k _ => .constant (.numbered .color k)
  | path k => .constant (.numbered .path k)
  | extendPath k _ => .reference (.numbered .path k)
  | transform k _ => .constant (.numbered .transform k)
  | locations k _ => .assignable (.numbered .locations k)
  | gradient k _ => .constant (.numbered .gradient k)
  | image k _ => .constant (.numbered .image k)
  | mask k _ _ => .constant (.numbered .mask k)
  | patternDraw k _ => .constant (.numbered .patternDraw k)
  | patternCallback k => .assignable (.numbered .patternCallback k)
  | pattern k _ => .constant (.numbered .pattern k)
  | call _ => .reference .context

/-- The lines of a statement. -/
def lines (s : Statement) : List String := Code.allLines s.code

/-- The line with which some code starts. -/
def firstLine : List Code → Line
  | .line content :: _ => content
  | .closure opening _ _ :: _ => opening
  | [] => []

/-- What comes after the subject on the first line of a statement. -/
def predicate (s : Statement) : Line := (firstLine s.code).tail

/-- The first line of a statement starts with its subject. -/
theorem lines_eq (s : Statement) :
    s.lines = Line.text (s.subject :: s.predicate) :: s.lines.tail := by
  cases s <;> rfl

theorem starts_subject (s : Statement) : s.subject.Starts := by
  cases s <;> constructor

/-- Whatever a statement does with its subject, the name ends there. -/
theorem endsName_predicate (s : Statement) : endsName (Line.text s.predicate).toList = true := by
  have happend {first second : List Char} (h : endsName first = true) :
      endsName (first ++ second) = true := by
    cases first with
    | nil => cases h
    | cons c first => exact h
  have hplain {text : String} {rest : Line} (h : endsName text.toList = true) :
      endsName (Line.text (.plain text :: rest)).toList = true := by
    rw [Line.toList_text_cons]
    exact happend h
  have hinterpolated {before after : String} (h : endsName before.toList = true) :
      endsName (before ++ after).toList = true := by
    rw [String.toList_append]
    exact happend h
  cases s with
  | space _ | transform _ _ | locations _ _ | extendPath _ _ => exact hplain (hinterpolated rfl)
  | image _ _ => exact hplain (hinterpolated (hinterpolated rfl))
  | _ => exact hplain rfl

/-- The line that declares a gradient lists its colours in between. -/
theorem predicate_gradient (k : Nat) (colors : List Color) :
    (gradient k colors).predicate =
      [.plain " = CGGradient(colorsSpace: ", .reference (.space .rgb), .plain ", colors: "] ++
        listLine (colors.map Color.line) ++
          [.plain " as CFArray, locations: &", .reference (.numbered .locations k), .plain ")!"] :=
  rfl

variable {s t : Statement} {us vs : List String}

/-- Statements with the same lines have the same subject, say the same of it on the first line, and
    go on alike. -/
theorem lines_append_cases (h : s.lines ++ us = t.lines ++ vs) :
    s.subject = t.subject ∧ Line.text s.predicate = Line.text t.predicate ∧
      s.lines.tail ++ us = t.lines.tail ++ vs := by
  rw [s.lines_eq, t.lines_eq] at h
  obtain ⟨hfirst, htail⟩ := List.cons.inj h
  have hchars := congrArg String.toList hfirst
  rw [Line.toList_text_cons, Line.toList_text_cons] at hchars
  obtain ⟨hsubject, hpredicate⟩ := Piece.text_append_inj s.starts_subject t.starts_subject
    s.endsName_predicate t.endsName_predicate hchars
  exact ⟨hsubject, String.toList_inj.1 hpredicate, htail⟩

/-! ## Further lines -/

/-- The size of a mask can be read off the lines that set up its context. -/
theorem maskContextLines_injective :
    Function.Injective fun size => (maskContextLines size).map Line.text := by
  rintro ⟨width, height⟩ ⟨width', height'⟩ h
  have hchars := congrArg String.toList (List.cons.inj h).1
  simp only [Line.toList_text_cons, Piece.text, String.toList_append, List.append_assoc,
    Literal.toList_toString] at hchars
  have hsize := List.append_cancel_left (List.append_cancel_left (List.append_cancel_left hchars))
  have hcomma (u : List Char) : EndsWord ("), ".toList ++ u) := .of_separates rfl u
  have hend (u : List Char) : EndsWord ("), bitsPerComponent: 8, bytesPerRow: 0, ".toList ++ u) :=
    .of_separates rfl u
  obtain ⟨rfl, hrest⟩ := readable_literal (hcomma _) (hcomma _) hsize
  have hheight := List.append_cancel_left (List.append_cancel_left hrest)
  obtain ⟨rfl, -⟩ := readable_literal (hend _) (hend _) hheight
  rfl

/-- The tile of a pattern can be read off its bounds. -/
theorem patternArgumentLines_injective (k : Nat) :
    Function.Injective fun tile => (patternArgumentLines k tile).map Line.text := by
  intro tile tile' h
  have hbounds := congrArg String.toList (List.cons.inj (List.cons.inj h).2).1
  refine (readable_rectText.enclosed "bounds: ".toList (c := ",".toList) rfl).injective ?_
  simp only [Line.toList_text_cons, Piece.text, String.toList_append, List.append_assoc] at hbounds
  exact hbounds

/-! ## Statements -/

/-- The statements in the closure of a statement. -/
def inner : Statement → List Statement
  | mask _ _ body => body
  | patternDraw _ body => body
  | _ => []

theorem allLines_map_line (lines : List Line) :
    Code.allLines (lines.map .line) = lines.map Line.text := by
  induction lines with
  | nil => rfl
  | cons line rest ih => exact congrArg (line.text :: ·) ih

/-- In the closure of a mask stand the lines of its context, those of the statements and that of the
    image, all indented. -/
theorem tail_lines_mask (k : Nat) (size : Size Literal) (body : List Statement) :
    (mask k size body).lines.tail =
      indented ((maskContextLines size).map Line.text ++ (Code.allLines (allCode body) ++
        [maskImageLine.text])) ++ ["\x7d()"] := by
  rw [← allLines_map_line, ← List.append_assoc, ← Code.allLines_append]
  have hlines : Code.allLines ((maskContextLines size).map .line ++ allCode body ++
      [.line maskImageLine]) =
        Code.allLines ((maskContextLines size).map .line ++ allCode body) ++ [maskImageLine.text] :=
    Code.allLines_append _ _
  rw [← hlines]
  exact List.append_nil _

/-- In the callback of a pattern stand the lines of the statements, indented. -/
theorem tail_lines_patternDraw (k : Nat) (body : List Statement) :
    (patternDraw k body).lines.tail = indented (Code.allLines (allCode body)) ++ ["\x7d"] :=
  List.append_nil _

/-- Every line in the list of arguments has something on it, so all of them are indented. -/
theorem ne_empty_of_mem_patternArgumentLines (k : Nat) (tile : Rect Literal) :
    ∀ line ∈ (patternArgumentLines k tile).map Line.text, line ≠ "" := by
  refine List.forall_mem_map.2 fun line hline h => ?_
  have hchars := congrArg String.toList h
  simp only [patternArgumentLines, List.mem_cons, List.not_mem_nil, or_false] at hline
  rcases hline with rfl | rfl | rfl | rfl | rfl | rfl | rfl | rfl
  all_goals
    simp [Line.toList_text_cons, Piece.text, toString] at hchars

/-- The arguments of a pattern are indented as if they were in a closure. -/
theorem tail_lines_pattern (k : Nat) (tile : Rect Literal) :
    (pattern k tile).lines.tail =
      indented ((patternArgumentLines k tile).map Line.text) ++ [")!"] := by
  have hindented (lines : List Line) :
      Code.allLines (lines.map fun line => .line (.plain "  " :: line)) =
        (lines.map Line.text).map ("  " ++ ·) := by
    induction lines with
    | nil => rfl
    | cons line rest ih =>
      rw [List.map_cons, List.map_cons, List.map_cons, Code.allLines, ih]
      exact congrArg (· :: _) (Line.text_append [.plain "  "] line)
  rw [indented_eq_map (ne_empty_of_mem_patternArgumentLines k tile), ← hindented]
  exact Code.allLines_append _ _

/-- A statement, and the lines after it, are determined if the statements in its closure are. -/
theorem eq_of_lines_append_of_inner (h : s.lines ++ us = t.lines ++ vs)
    (hinner : Code.allLines (allCode s.inner) = Code.allLines (allCode t.inner) →
      s.inner = t.inner) : s = t ∧ us = vs := by
  obtain ⟨hsubject, hpredicate, htail⟩ := lines_append_cases h
  cases s with
  | space s =>
    cases t with
    | space s' =>
      cases hsubject
      exact ⟨rfl, htail⟩
    | _ => cases hsubject
  | patternAlpha =>
    cases t with
    | patternAlpha => exact ⟨rfl, htail⟩
    | _ => cases hsubject
  | color k c =>
    cases t with
    | color k' c' =>
      cases hsubject
      have hcolor : Line.text ([.plain " = "] ++ c.line) = Line.text ([.plain " = "] ++ c'.line) :=
        hpredicate
      rw [Line.text_append, Line.text_append, String.append_right_inj] at hcolor
      rw [Color.readable_text.injective (congrArg String.toList hcolor)]
      exact ⟨rfl, htail⟩
    | _ => cases hsubject
  | path k =>
    cases t with
    | path k' =>
      cases hsubject
      exact ⟨rfl, htail⟩
    | _ => cases hsubject
  | extendPath k step =>
    cases t with
    | extendPath k' step' =>
      cases hsubject
      rw [PathStep.text_injective ((String.append_right_inj _).1 hpredicate)]
      exact ⟨rfl, htail⟩
    | _ => cases hsubject
  | transform k m =>
    cases t with
    | transform k' m' =>
      cases hsubject
      have hmatrix : matrixText m = matrixText m' := (String.append_right_inj _).1 hpredicate
      rw [readable_matrixText.injective (congrArg String.toList hmatrix)]
      exact ⟨rfl, htail⟩
    | _ => cases hsubject
  | locations k values =>
    cases t with
    | locations k' values' =>
      cases hsubject
      have hvalues : listText (values.map Literal.text) = listText (values'.map Literal.text) :=
        (String.append_right_inj _).1 hpredicate
      rw [readable_literals.injective (congrArg String.toList hvalues)]
      exact ⟨rfl, htail⟩
    | _ => cases hsubject
  | gradient k colors =>
    cases t with
    | gradient k' colors' =>
      cases hsubject
      have hcolors := hpredicate
      rw [predicate_gradient, predicate_gradient, Line.text_append, Line.text_append,
        Line.text_append, Line.text_append, String.append_left_inj, String.append_right_inj]
        at hcolors
      rw [readable_colors.injective (congrArg String.toList hcolors)]
      exact ⟨rfl, htail⟩
    | _ => cases hsubject
  | image k picture =>
    cases t with
    | image k' picture' =>
      cases hsubject
      have htext : picture.base64 = picture'.base64 :=
        (String.append_right_inj _).1 ((String.append_left_inj _).1 hpredicate)
      obtain rfl : picture = picture' := congrArg Image.mk htext
      exact ⟨rfl, htail⟩
    | _ => cases hsubject
  | mask k size body =>
    cases t with
    | mask k' size' body' =>
      cases hsubject
      rw [tail_lines_mask, tail_lines_mask, List.append_assoc, List.append_assoc] at htail
      obtain ⟨hlines, huv⟩ := indented_append_inj (closing_ne "\x7d()" (by decide)) htail
      obtain ⟨hsize, hbody⟩ := List.append_inj hlines rfl
      obtain rfl : body = body' := hinner (List.append_cancel_right hbody)
      rw [maskContextLines_injective hsize]
      exact ⟨rfl, huv⟩
    | _ => cases hsubject
  | patternDraw k body =>
    cases t with
    | patternDraw k' body' =>
      cases hsubject
      rw [tail_lines_patternDraw, tail_lines_patternDraw, List.append_assoc, List.append_assoc]
        at htail
      obtain ⟨hbody, huv⟩ := indented_append_inj (closing_ne "\x7d" (by decide)) htail
      obtain rfl : body = body' := hinner hbody
      exact ⟨rfl, huv⟩
    | _ => cases hsubject
  | patternCallback k =>
    cases t with
    | patternCallback k' =>
      cases hsubject
      exact ⟨rfl, htail⟩
    | _ => cases hsubject
  | pattern k tile =>
    cases t with
    | pattern k' tile' =>
      cases hsubject
      rw [tail_lines_pattern, tail_lines_pattern, List.append_assoc, List.append_assoc] at htail
      obtain ⟨harguments, huv⟩ := indented_append_inj (closing_ne ")!" (by decide)) htail
      rw [patternArgumentLines_injective k harguments]
      exact ⟨rfl, huv⟩
    | _ => cases hsubject
  | call c =>
    cases t with
    | call c' =>
      have hcall : Line.text ([.plain "."] ++ c.suffix) = Line.text ([.plain "."] ++ c'.suffix) :=
        hpredicate
      rw [Line.text_append, Line.text_append, String.append_right_inj] at hcall
      rw [Call.suffix_text_injective hcall]
      exact ⟨rfl, htail⟩
    | _ => cases hsubject

theorem allLines_cons (s : Statement) (rest : List Statement) :
    Code.allLines (allCode (s :: rest)) = s.lines ++ Code.allLines (allCode rest) := by
  rw [allCode, Code.allLines_append]
  rfl

theorem allLines_cons_ne_nil (s : Statement) (rest : List Statement) :
    Code.allLines (allCode (s :: rest)) ≠ [] := by
  rw [allLines_cons, lines_eq]
  exact List.cons_ne_nil _ _

mutual

/-- The statements in the closure of a statement are determined by their lines. -/
theorem inner_eq_of_allLines : ∀ s t : Statement,
    Code.allLines (allCode s.inner) = Code.allLines (allCode t.inner) → s.inner = t.inner
  | mask _ _ body, t, h | patternDraw _ body, t, h => eq_of_allLines body t.inner h
  | space _, t, h | patternAlpha, t, h | color _ _, t, h | path _, t, h | extendPath _ _, t, h
  | transform _ _, t, h | locations _ _, t, h | gradient _ _, t, h | image _ _, t, h
  | patternCallback _, t, h | pattern _ _, t, h | call _, t, h => by
    cases ht : t.inner with
    | nil => rfl
    | cons first rest => exact absurd (ht ▸ h).symm (allLines_cons_ne_nil first rest)
termination_by structural s => s

/-- A list of statements is determined by its lines: the first statement ends where the text says
    so, and the rest is determined by what is left. -/
theorem eq_of_allLines : ∀ ss ts : List Statement,
    Code.allLines (allCode ss) = Code.allLines (allCode ts) → ss = ts
  | [], [], _ => rfl
  | [], t :: others, h => absurd h.symm (allLines_cons_ne_nil t others)
  | s :: rest, [], h => absurd h (allLines_cons_ne_nil s rest)
  | s :: rest, t :: others, h => by
    rw [allLines_cons, allLines_cons] at h
    obtain ⟨rfl, hrest⟩ := eq_of_lines_append_of_inner h (inner_eq_of_allLines s t)
    rw [eq_of_allLines rest others hrest]
termination_by structural ss => ss

end

/-- Different statements have different lines. -/
theorem allLines_injective : Function.Injective fun ss => Code.allLines (allCode ss) :=
  eq_of_allLines

end Statement

end SceneCode.Swift
