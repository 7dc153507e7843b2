import Mathlib.Data.List.TakeWhile
import Mathlib.Logic.Function.Basic
import SceneCode.Proofs.Base64
import SceneCode.Proofs.Literals
import SceneCode.Proofs.Scopes

/-!
# Texts that can be read

A printer is *readable* (`Readable`) if what has been printed can be told from any text that starts
with it, so long as no word goes on there. Words are readable if different ones have different
texts: literals and names are words. In between stand separators, at which every word ends. A
printer that puts its parts together with separators is readable if its parts are, and so is one
that prints lists of what is readable.

* `readable_pointText`, `readable_rectText`, `readable_matrixText`, `Color.readable_text`: values
  can be read from their expressions;
* `PathStep.text_injective`, `representImage_injective`: so can the steps of a path, and the bytes
  of an image.
-/

namespace SceneCode.Swift

/-! ## Words and separators -/

/-- Words are made of letters and digits, points and signs. -/
def isWordChar (c : Char) : Bool := c.isAlphanum || c = '.' || c = '-'

variable {u : List Char}

/-- The text starts with a character that ends a word. -/
def separates : List Char → Bool
  | [] => false
  | c :: _ => !isWordChar c

/-- No word goes on at the start of the text. -/
def EndsWord (u : List Char) : Prop := u = [] ∨ separates u = true

theorem EndsWord.of_separates {c : List Char} (h : separates c = true) (u : List Char) :
    EndsWord (c ++ u) := by
  cases c with
  | nil => cases h
  | cons d c => exact .inr h

/-- What is in a class of characters is cut off where the class ends. -/
theorem takeWhile_append_of_ends {P : Char → Bool} {word u : List Char}
    (hword : ∀ c ∈ word, P c = true) (hu : ∀ c ∈ u.head?, P c = false) :
    (word ++ u).takeWhile P = word := by
  rw [List.takeWhile_append_of_pos hword]
  cases u with
  | nil => rw [List.takeWhile_nil, List.append_nil]
  | cons c u => rw [List.takeWhile_cons_of_neg (by simp [hu c rfl]), List.append_nil]

/-- What ends a word does not start with a character of words. -/
theorem EndsWord.head (h : EndsWord u) : ∀ c ∈ u.head?, isWordChar c = false := by
  rcases h with rfl | h
  · nofun
  · cases u with
    | nil => cases h
    | cons c u => simpa [separates] using h

/-- The printed value and the text after it can be told from the text that they make up. -/
def Readable {α : Type} (print : α → List Char) : Prop :=
  ∀ ⦃a b : α⦄ ⦃u v : List Char⦄, EndsWord u → EndsWord v → print a ++ u = print b ++ v →
    a = b ∧ u = v

namespace Readable

variable {α β : Type} {print : α → List Char} {print' : β → List Char}

/-- Words that are told apart by their texts are readable. -/
theorem of_words (hinj : Function.Injective print)
    (hword : ∀ a, ∀ c ∈ print a, isWordChar c = true) : Readable print := by
  intro a b u v hu hv h
  have hprint := congrArg (·.takeWhile isWordChar) h
  rw [takeWhile_append_of_ends (hword a) hu.head, takeWhile_append_of_ends (hword b) hv.head]
    at hprint
  rw [hprint] at h
  exact ⟨hinj hprint, List.append_cancel_left h⟩

variable (h : Readable print)
include h

/-- Different values are printed differently. -/
theorem injective : Function.Injective print := fun _ _ heq =>
  (h (.inl rfl) (.inl rfl) (congrArg (· ++ []) heq)).1

/-- A value can be read if something that determines it can. -/
theorem comp {g : β → α} (hg : Function.Injective g) : Readable (fun b => print (g b)) := by
  intro a b u v hu hv heq
  obtain ⟨hab, huv⟩ := h hu hv heq
  exact ⟨hg hab, huv⟩

theorem of_eq {print' : α → List Char} (heq : ∀ a, print' a = print a) : Readable print' := by
  rwa [funext heq]

/-- A value with some text before it and a separator after it. -/
theorem enclosed (before : List Char) {c : List Char} (hc : separates c = true) :
    Readable (fun a => before ++ (print a ++ c)) := by
  intro a b u v _ _ heq
  simp only [List.append_assoc] at heq
  obtain ⟨hab, huv⟩ :=
    h (.of_separates hc u) (.of_separates hc v) (List.append_cancel_left heq)
  exact ⟨hab, List.append_cancel_left huv⟩

/-- Two values with a separator between them. -/
theorem pair {c : List Char} (hc : separates c = true) (h' : Readable print') :
    Readable (fun x : α × β => print x.1 ++ (c ++ print' x.2)) := by
  intro x y u v hu hv heq
  simp only [List.append_assoc] at heq
  obtain ⟨hfst, hrest⟩ := h (.of_separates hc _) (.of_separates hc _) heq
  obtain ⟨hsnd, huv⟩ := h' hu hv (List.append_cancel_left hrest)
  exact ⟨Prod.ext hfst hsnd, huv⟩

end Readable

/-! ## Lists -/

section Lists

variable {α : Type} {print : α → String}

/-- The items after the first one. -/
def laterItems (print : α → String) (items : List α) : List Char :=
  items.flatMap fun a => [',', ' '] ++ (print a).toList

/-- Whatever comes after an item, another one or the end, starts with a separator. -/
theorem endsWord_laterItems (print : α → String) (items : List α) (u : List Char) :
    EndsWord (laterItems print items ++ ']' :: u) := by
  cases items <;> exact .inr rfl

/-- The items of a list come one after the other, and all but the first one come after a comma. -/
theorem toList_joined_comma (a : α) (items : List α) :
    (joined ", " ((a :: items).map print)).toList = (print a).toList ++ laterItems print items := by
  induction items generalizing a with
  | nil => simp [joined, laterItems]
  | cons b items ih =>
    have hjoined : joined ", " ((a :: b :: items).map print) =
        print a ++ ", " ++ joined ", " ((b :: items).map print) := rfl
    rw [hjoined, String.toList_append, String.toList_append, ih, laterItems, laterItems,
      List.flatMap_cons, List.append_assoc, List.append_assoc]
    rfl

variable (h : Readable fun a => (print a).toList)
include h

/-- Each further item starts with a comma, and the list ends where a bracket comes instead. -/
theorem laterItems_inj {items items' : List α} {u v : List Char}
    (heq : laterItems print items ++ ']' :: u = laterItems print items' ++ ']' :: v) :
    items = items' ∧ u = v := by
  induction items generalizing items' with
  | nil =>
    cases items' with
    | nil => exact ⟨rfl, (List.cons.inj heq).2⟩
    | cons b items' => exact absurd (List.cons.inj heq).1 (by decide)
  | cons a items ih =>
    cases items' with
    | nil => exact absurd (List.cons.inj heq).1 (by decide)
    | cons b items' =>
      simp only [laterItems, List.flatMap_cons, List.append_assoc] at heq
      obtain ⟨rfl, hrest⟩ := h (endsWord_laterItems print items u)
        (endsWord_laterItems print items' v) (List.append_cancel_left heq)
      obtain ⟨rfl, huv⟩ := ih hrest
      exact ⟨rfl, huv⟩

/-- A list of what is readable, in brackets, if its items are told apart from the closing one. -/
theorem readable_listText (hhead : ∀ a, ∃ c rest, (print a).toList = c :: rest ∧ c ≠ ']') :
    Readable fun items : List α => (listText (items.map print)).toList := by
  have hlist (items : List α) (u : List Char) : (listText (items.map print)).toList ++ u =
      '[' :: ((joined ", " (items.map print)).toList ++ ']' :: u) := by
    simp [listText]
  have hitem (a : α) (items : List α) (u v : List Char) :
      ']' :: u ≠ (joined ", " ((a :: items).map print)).toList ++ v := by
    obtain ⟨c, rest, ha, hc⟩ := hhead a
    rw [toList_joined_comma, ha]
    exact fun heq => hc (List.cons.inj heq).1.symm
  intro items items' u v _ _ heq
  simp only [hlist, List.cons.injEq, true_and] at heq
  cases items with
  | nil =>
    cases items' with
    | nil => exact ⟨rfl, (List.cons.inj heq).2⟩
    | cons b items' => exact absurd heq (hitem b items' u _)
  | cons a items =>
    cases items' with
    | nil => exact absurd heq.symm (hitem a items v _)
    | cons b items' =>
      rw [toList_joined_comma, toList_joined_comma, List.append_assoc, List.append_assoc] at heq
      obtain ⟨rfl, hrest⟩ := h (endsWord_laterItems print items u)
        (endsWord_laterItems print items' v) heq
      obtain ⟨rfl, huv⟩ := laterItems_inj h hrest
      exact ⟨rfl, huv⟩

end Lists

/-! ## Literals and names -/

theorem isWordChar_of_isDigit {c : Char} (h : c.isDigit = true) : isWordChar c = true := by
  simp [isWordChar, Char.isAlphanum, h]

/-- Numbers are words. -/
theorem Literal.isWordChar_of_mem_chars (l : Literal) : ∀ c ∈ l.chars, isWordChar c = true := by
  obtain ⟨x⟩ := l
  cases x with
  | nan => exact List.all_eq_true.1 rfl
  | real negative rank =>
    have hmagnitude : ∀ c ∈ magnitudeChars rank, isWordChar c = true := by
      by_cases htop : rank.val = Format.binary32.top
      · rw [magnitudeChars_top htop]
        exact List.all_eq_true.1 rfl
      · intro c hc
        rcases (readsBack_read htop).2 c hc with hdigit | rfl
        · exact isWordChar_of_isDigit hdigit
        · rfl
    rw [chars_real]
    cases negative with
    | false => exact hmagnitude
    | true => exact List.forall_mem_cons.2 ⟨rfl, hmagnitude⟩

theorem Literal.chars_ne_nil (l : Literal) : l.chars ≠ [] := by
  obtain ⟨x⟩ := l
  cases x with
  | nan => exact List.cons_ne_nil _ _
  | real negative rank =>
    rw [chars_real]
    cases negative with
    | false => exact magnitudeChars_ne_nil rank
    | true => exact List.cons_ne_nil _ _

/-- A number ends where the word ends. -/
theorem readable_literal : Readable Literal.chars :=
  .of_words Literal.chars_injective Literal.isWordChar_of_mem_chars

theorem Name.isAlphanum_of_mem_text (n : Name) : ∀ c ∈ n.text.toList, c.isAlphanum = true := by
  intro c hc
  rw [toList_text, List.mem_append] at hc
  rcases hc with hc | hc
  · have hbase (family : Family) : family.base.toList.all Char.isAlphanum = true := by
      cases family <;> decide
    have hletters : n.letters.toList.all Char.isAlphanum = true := by
      cases n with
      | numbered family _ => exact hbase family
      | space s => cases s <;> decide
      | patternAlpha | context => decide
    exact List.all_eq_true.1 hletters c hc
  · simp [Char.isAlphanum, n.isDigit_of_mem_digits c hc]

/-- A name ends where the word ends. -/
theorem readable_name : Readable fun n : Name => n.text.toList := by
  refine .of_words (fun _ _ h => Name.text_injective (String.toList_inj.1 h)) fun n c hc => ?_
  simp [isWordChar, n.isAlphanum_of_mem_text c hc]

theorem Literal.toList_toString (l : Literal) : (toString l).toList = l.chars :=
  String.toList_ofList

/-- The numbers in a list can be read off its text. -/
theorem readable_literals :
    Readable fun ls : List Literal => (listText (ls.map Literal.text)).toList := by
  have htext (l : Literal) : l.text.toList = l.chars := String.toList_ofList
  refine readable_listText (by simpa only [htext] using readable_literal) fun l => ?_
  rw [htext]
  cases h : l.chars with
  | nil => exact absurd h l.chars_ne_nil
  | cons c rest =>
    refine ⟨c, rest, rfl, ?_⟩
    have hc := l.isWordChar_of_mem_chars c (h ▸ List.mem_cons_self)
    rintro rfl
    cases hc

/-! ## Expressions -/

theorem toList_pointText (p : Point Literal) : (pointText p).toList =
    "CGPoint(x: ".toList ++ ((p.x.chars ++ (", y: ".toList ++ p.y.chars)) ++ ")".toList) := by
  delta pointText
  simp only [String.toList_append, List.append_assoc, Literal.toList_toString]
  rfl

/-- Both coordinates can be read off the text of a point. -/
theorem readable_pointText : Readable fun p => (pointText p).toList := by
  have hfields : Function.Injective fun p : Point Literal => (p.x, p.y) := by
    rintro ⟨x, y⟩ ⟨x', y'⟩ heq
    cases heq
    rfl
  have hpair := readable_literal.pair (c := ", y: ".toList) rfl readable_literal
  exact ((hpair.comp hfields).enclosed "CGPoint(x: ".toList (c := ")".toList) rfl).of_eq
    toList_pointText

theorem readable_points :
    Readable fun points : List (Point Literal) => (listText (points.map pointText)).toList :=
  readable_listText readable_pointText fun p => ⟨'C', _, toList_pointText p, by decide⟩

/-- Origin and size can be read off the text of a rectangle. -/
theorem readable_rectText : Readable fun r => (rectText r).toList := by
  have hfields : Function.Injective fun r : Rect Literal =>
      (r.origin.x, r.origin.y, r.size.width, r.size.height) := by
    rintro ⟨⟨x, y⟩, ⟨w, h⟩⟩ ⟨⟨x', y'⟩, ⟨w', h'⟩⟩ heq
    cases heq
    rfl
  have hpairs := readable_literal.pair (c := ", y: ".toList) rfl
    (readable_literal.pair (c := ", width: ".toList) rfl
      (readable_literal.pair (c := ", height: ".toList) rfl readable_literal))
  refine ((hpairs.comp hfields).enclosed "CGRect(x: ".toList (c := ")".toList) rfl).of_eq
    fun r => ?_
  delta rectText
  simp only [String.toList_append, List.append_assoc, Literal.toList_toString]
  rfl

/-- All six numbers can be read off the text of a matrix. -/
theorem readable_matrixText : Readable fun m => (matrixText m).toList := by
  have hfields : Function.Injective fun m : Affine Literal => (m.a, m.b, m.c, m.d, m.tx, m.ty) := by
    rintro ⟨a, b, c, d, tx, ty⟩ ⟨a', b', c', d', tx', ty'⟩ heq
    cases heq
    rfl
  have hpairs := readable_literal.pair (c := ", b: ".toList) rfl
    (readable_literal.pair (c := ", c: ".toList) rfl
      (readable_literal.pair (c := ", d: ".toList) rfl
        (readable_literal.pair (c := ", tx: ".toList) rfl
          (readable_literal.pair (c := ", ty: ".toList) rfl readable_literal))))
  refine ((hpairs.comp hfields).enclosed "CGAffineTransform(a: ".toList (c := ")".toList) rfl).of_eq
    fun m => ?_
  delta matrixText
  simp only [String.toList_append, List.append_assoc, Literal.toList_toString]
  rfl

/-! ## Colours -/

namespace Line

theorem toList_text_cons (p : Piece) (line : Line) :
    (Line.text (p :: line)).toList = p.text.toList ++ (Line.text line).toList := by
  rw [toList_text, toList_text, List.flatMap_cons]

/-- The text of a line is the text of its parts. -/
theorem text_append (first second : Line) :
    Line.text (first ++ second) = Line.text first ++ Line.text second := by
  rw [← String.toList_inj, String.toList_append, toList_text, toList_text, toList_text,
    List.flatMap_append]

end Line

/-- A list of expressions is printed as a list of their texts. -/
theorem toList_text_listLine (items : List Line) :
    (Line.text (listLine items)).toList = (listText (items.map Line.text)).toList := by
  have hitems : ((items.intersperse [.plain ", "]).flatten).flatMap
      (fun piece => piece.text.toList) = (joined ", " (items.map Line.text)).toList := by
    induction items with
    | nil => rfl
    | cons line rest ih =>
      cases rest with
      | nil => simp [joined, Line.toList_text]
      | cons next rest =>
        have hjoined : joined ", " ((line :: next :: rest).map Line.text) =
            line.text ++ ", " ++ joined ", " ((next :: rest).map Line.text) := rfl
        rw [hjoined, String.toList_append, String.toList_append, ← ih, Line.toList_text]
        simp [Piece.text]
  rw [Line.toList_text, listLine, List.flatMap_append, List.flatMap_append, hitems, listText,
    String.toList_append, String.toList_append]
  rfl

/-- Space and components can be read off the text of a colour. -/
theorem Color.readable_text : Readable fun c : Color => c.text.toList := by
  have hfields : Function.Injective fun c : Color => (c.space, c.components) := by
    rintro ⟨space, components⟩ ⟨space', components'⟩ heq
    cases heq
    rfl
  have hspace : Readable fun s => (Name.space s).text.toList :=
    readable_name.comp fun _ _ => Name.space.inj
  refine (((hspace.pair (c := ", components: ".toList) rfl readable_literals).comp hfields).enclosed
    "CGColor(colorSpace: ".toList (c := ")!".toList) rfl).of_eq fun c => ?_
  rw [Color.text, Line.toList_text, Color.line]
  simp only [List.flatMap_cons, List.flatMap_nil, List.append_nil, Piece.text, String.toList_append,
    List.append_assoc]
  rfl

/-- The colours of a gradient can be read off its line. -/
theorem readable_colors :
    Readable fun cs : List Color => (Line.text (listLine (cs.map Color.line))).toList := by
  have hlist : Readable fun cs : List Color => (listText (cs.map Color.text)).toList := by
    refine readable_listText Color.readable_text fun c => ?_
    refine ⟨'C', c.text.toList.tail, ?_, by decide⟩
    rw [Color.text, Line.toList_text]
    rfl
  refine hlist.of_eq fun cs => ?_
  rw [toList_text_listLine, List.map_map]
  rfl

/-! ## Steps of paths -/

/-- Texts that start differently are different. -/
theorem ne_of_heads {p q u v : List Char} (hp : p.isPrefixOf q = false)
    (hq : q.isPrefixOf p = false) : p ++ u ≠ q ++ v := by
  intro h
  have hprefix := List.prefix_or_prefix_of_prefix (List.prefix_append p u)
    (h ▸ List.prefix_append q v)
  rw [← List.isPrefixOf_iff_prefix, ← List.isPrefixOf_iff_prefix, hp, hq] at hprefix
  simp at hprefix

namespace PathStep

/-- The text before the arguments of a step. -/
def head : PathStep → List Char
  | move _ => "move(to: ".toList
  | line _ => "addLine(to: ".toList
  | curve _ _ _ => "addCurve(to: ".toList
  | close => "closeSubpath()".toList
  | lines _ => "addLines(between: ".toList
  | rect _ => "addRect(".toList
  | roundedRect _ _ => "addRoundedRect(in: ".toList
  | ellipse _ => "addEllipse(in: ".toList

/-- The text after that. -/
def arguments : PathStep → List Char
  | move p => (pointText p).toList ++ [')']
  | line p => (pointText p).toList ++ [')']
  | curve p c1 c2 =>
    (pointText p).toList ++ (", control1: ".toList ++ ((pointText c1).toList ++
      (", control2: ".toList ++ (pointText c2).toList))) ++ [')']
  | close => []
  | lines points => (listText (points.map pointText)).toList ++ [')']
  | rect frame => (rectText frame).toList ++ [')']
  | roundedRect frame corner =>
    (rectText frame).toList ++ (", cornerWidth: ".toList ++ (corner.width.chars ++
      (", cornerHeight: ".toList ++ corner.height.chars))) ++ [')']
  | ellipse frame => (rectText frame).toList ++ [')']

/-- A step of a path is printed as its head and its arguments. -/
theorem toList_text (step : PathStep) : step.text.toList = step.head ++ step.arguments := by
  cases step with
  | move p =>
    show (toString "move(to: " ++ toString (pointText p) ++ toString ")").toList = _
    simp only [String.toList_append, List.append_assoc]
    rfl
  | line p =>
    show (toString "addLine(to: " ++ toString (pointText p) ++ toString ")").toList = _
    simp only [String.toList_append, List.append_assoc]
    rfl
  | curve p c1 c2 =>
    show (toString "addCurve(to: " ++ toString (pointText p) ++ toString ", control1: " ++
      toString (pointText c1) ++ toString ", control2: " ++ toString (pointText c2) ++
      toString ")").toList = _
    simp only [arguments, String.toList_append, List.append_assoc]
    rfl
  | close => rfl
  | lines points =>
    show (toString "addLines(between: " ++ toString (listText (points.map pointText)) ++
      toString ")").toList = _
    simp only [String.toList_append, List.append_assoc]
    rfl
  | rect frame =>
    show (toString "addRect(" ++ toString (rectText frame) ++ toString ")").toList = _
    simp only [String.toList_append, List.append_assoc]
    rfl
  | roundedRect frame corner =>
    show (toString "addRoundedRect(in: " ++ toString (rectText frame) ++
      toString ", cornerWidth: " ++ toString corner.width ++ toString ", " ++
      (toString "cornerHeight: " ++ toString corner.height ++ toString ")")).toList = _
    simp only [arguments, String.toList_append, List.append_assoc, Literal.toList_toString]
    rfl
  | ellipse frame =>
    show (toString "addEllipse(in: " ++ toString (rectText frame) ++ toString ")").toList = _
    simp only [String.toList_append, List.append_assoc]
    rfl

/-- Different steps are printed differently: the head gives the kind of step, and the arguments the
    rest. -/
theorem text_injective : Function.Injective PathStep.text := by
  intro s t h
  have htexts : s.head ++ s.arguments = t.head ++ t.arguments := by
    rw [← toList_text, ← toList_text, h]
  have hend : EndsWord [')'] := .inr rfl
  cases s with
  | move p =>
    cases t with
    | move q => rw [(readable_pointText hend hend (List.append_cancel_left htexts)).1]
    | _ => exact absurd htexts (ne_of_heads rfl rfl)
  | line p =>
    cases t with
    | line q => rw [(readable_pointText hend hend (List.append_cancel_left htexts)).1]
    | _ => exact absurd htexts (ne_of_heads rfl rfl)
  | curve p c1 c2 =>
    cases t with
    | curve q d1 d2 =>
      have hcurve := (readable_pointText.pair (c := ", control1: ".toList) rfl
        (readable_pointText.pair (c := ", control2: ".toList) rfl readable_pointText))
      have heq := (hcurve (a := (p, c1, c2)) (b := (q, d1, d2)) hend hend
        (List.append_cancel_left htexts)).1
      cases heq
      rfl
    | _ => exact absurd htexts (ne_of_heads rfl rfl)
  | close =>
    cases t with
    | close => rfl
    | _ => exact absurd htexts (ne_of_heads rfl rfl)
  | lines points =>
    cases t with
    | lines points' => rw [(readable_points hend hend (List.append_cancel_left htexts)).1]
    | _ => exact absurd htexts (ne_of_heads rfl rfl)
  | rect frame =>
    cases t with
    | rect frame' => rw [(readable_rectText hend hend (List.append_cancel_left htexts)).1]
    | _ => exact absurd htexts (ne_of_heads rfl rfl)
  | roundedRect frame corner =>
    cases t with
    | roundedRect frame' corner' =>
      have hframe := readable_rectText.pair (c := ", cornerWidth: ".toList) rfl
        (readable_literal.pair (c := ", cornerHeight: ".toList) rfl readable_literal)
      obtain ⟨width, height⟩ := corner
      obtain ⟨width', height'⟩ := corner'
      have heq := (hframe (a := (frame, width, height)) (b := (frame', width', height')) hend hend
        (List.append_cancel_left htexts)).1
      cases heq
      rfl
    | _ => exact absurd htexts (ne_of_heads rfl rfl)
  | ellipse frame =>
    cases t with
    | ellipse frame' => rw [(readable_rectText hend hend (List.append_cancel_left htexts)).1]
    | _ => exact absurd htexts (ne_of_heads rfl rfl)

end PathStep

/-! ## Images -/

/-- The text of an image tells its bytes. -/
theorem representImage_injective : Function.Injective representImage := by
  rintro ⟨bytes⟩ ⟨bytes'⟩ h
  have htext := String.ofList_injective (Image.mk.inj h)
  exact congrArg SceneCode.Image.mk (Base64.encode_injective htext)

end SceneCode.Swift
