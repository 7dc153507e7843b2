import Mathlib.Data.List.DropRight
import SceneCode.Proofs.Layout
import SceneCode.Proofs.TypeNames

/-!
# The lines of a source file

A source file is a list of lines, each with a line break after it (`toList_sourceFile`): the lines
in front, the header of the function that draws, the lines that have been rendered, four spaces
further in, and the two that close the function and the extension. None of them has a line break of
its own, not even the one with the name of the title, so they can be read from the file.

* `laidOut_lines_and_drawnLines_sourceFile`: the rendered lines are laid out, and can be read back
  from the file.
-/

namespace SceneCode.Swift

/-! ## Texts of lines -/

/-- A line break after each line is a line break between the lines and an empty line at the end. -/
theorem intercalate_concat_nil (lines : List (List Char)) :
    ['\n'].intercalate (lines ++ [[]]) = lines.flatMap (· ++ ['\n']) := by
  induction lines with
  | nil => rfl
  | cons line rest ih =>
    have hcons : ∃ next others, rest ++ [[]] = next :: others :=
      List.exists_cons_of_ne_nil (by simp)
    obtain ⟨next, others, heq⟩ := hcons
    rw [List.cons_append, heq, List.intercalate_cons_cons, ← heq, ih, List.flatMap_cons]

/-- The lines of a file, the last one of which is without a line break. -/
def fileLines (file : String) : List String := (file.toList.splitOn '\n').map String.ofList

/-- A file whose lines end with line breaks is split at these, which leaves an empty line at the
    end. -/
theorem fileLines_eq {file : String} {lines : List String}
    (hfile : file.toList = lines.flatMap fun line => line.toList ++ ['\n'])
    (hlines : ∀ line ∈ lines, '\n' ∉ line.toList) : fileLines file = lines ++ [""] := by
  have hbreaks : ∀ line ∈ lines.map String.toList ++ [[]], '\n' ∉ line :=
    List.forall_mem_append.2 ⟨List.forall_mem_map.2 hlines, by simp⟩
  have hchars : (lines.map String.toList).flatMap (· ++ ['\n']) = file.toList := by
    rw [hfile, List.flatMap_map]
  have hsplit := List.splitOn_intercalate '\n' hbreaks (by simp)
  rw [intercalate_concat_nil, hchars] at hsplit
  rw [fileLines, hsplit, List.map_append, List.map_map]
  have hid : String.ofList ∘ String.toList = id := funext fun _ => String.ofList_toList
  rw [hid, List.map_id]
  rfl

/-- Joined lines lack the last line break only. -/
theorem toList_joined_newline {lines : List String} (h : lines ≠ []) :
    (joined "\n" lines).toList ++ ['\n'] = lines.flatMap fun line => line.toList ++ ['\n'] := by
  induction lines with
  | nil => exact absurd rfl h
  | cons line rest ih =>
    cases rest with
    | nil => simp [joined]
    | cons next rest =>
      have hjoined : joined "\n" (line :: next :: rest) =
          line ++ "\n" ++ joined "\n" (next :: rest) := rfl
      rw [hjoined, String.toList_append, String.toList_append, List.append_assoc,
        ih (List.cons_ne_nil _ _), List.flatMap_cons]
      rfl

/-! ## The lines of a source file -/

/-- The lines before the function that draws. -/
def frontLines (title : String) (size : Size Literal) : List String :=
  ["extension UIImage \x7b",
    s!"  static func svg{typeName title}() -> UIImage \x7b",
    "    let f = UIGraphicsImageRendererFormat.preferred()",
    "    f.opaque = false",
    s!"    return UIGraphicsImageRenderer(size: {sizeText size}, format: f).image \x7b",
    "      drawSVG(in: $0.cgContext)",
    "    \x7d",
    "  \x7d",
    ""]

/-- The line that opens the function that draws. -/
def drawHeader : String := "  private static func drawSVG(in ctx: CGContext) \x7b"

/-- The lines in this function. Without any, there is an empty one. -/
def functionLines (lines : List String) : List String :=
  if lines = [] then [""] else lines.map ("    " ++ ·)

/-- Lines that are not empty are moved twice. -/
theorem indented_indented {lines : List String} (h : ∀ line ∈ lines, line ≠ "") :
    indented (indented lines) = lines.map ("    " ++ ·) := by
  have hindented : ∀ line ∈ lines.map ("  " ++ ·), line ≠ "" :=
    List.forall_mem_map.2 fun line _ => spaces_append_ne_empty line
  rw [indented_eq_map h, indented_eq_map hindented, List.map_map]
  refine List.map_congr_left fun line _ => ?_
  exact String.append_assoc.symm

/-- What is drawn becomes lines with four spaces in front; without it, a single empty line is left.
    -/
theorem toList_functionLines {lines : List String} (h : ∀ line ∈ lines, line ≠ "") :
    (joined "\n" (indented (indented lines))).toList ++ ['\n'] =
      (functionLines lines).flatMap fun line => line.toList ++ ['\n'] := by
  rw [functionLines, indented_indented h]
  split
  · next h =>
    rw [h]
    rfl
  · next h => exact toList_joined_newline (by simpa using h)

/-- A source file is made of lines, each with a line break after it. -/
theorem toList_sourceFile (title : String) (size : Size Literal) {lines : List String}
    (h : ∀ line ∈ lines, line ≠ "") :
    (sourceFile title size lines).toList =
      (frontLines title size ++ drawHeader :: (functionLines lines ++ ["  \x7d", "\x7d"])).flatMap
        fun line => line.toList ++ ['\n'] := by
  have hfunction := toList_functionLines h
  delta sourceFile frontLines drawHeader
  simp only [List.flatMap_append, List.flatMap_cons, List.flatMap_nil, ← hfunction,
    String.toList_append, toString_string, List.append_assoc]
  simp

/-- A title is made a name, in which there is no line break. -/
theorem not_mem_typeName (title : String) : '\n' ∉ (typeName title).toList := by
  intro hmem
  obtain hletter | hmark := mem_typeName hmem
  · exact Bool.noConfusion ((show isAlphanumeric '\n' = false by decide +kernel).symm.trans hletter)
  · exact absurd hmark (by decide)

/-- The title and the size of the picture stand on lines of their own. -/
theorem not_mem_frontLines (title : String) (size : Size Literal) :
    ∀ line ∈ frontLines title size, '\n' ∉ line.toList := by
  have hsize := not_mem_of_closersAfter (closed_sizeText size [])
  have hname := not_mem_typeName title
  simp [frontLines, toString_string, hsize, hname]

theorem not_mem_functionLines {lines : List String} (h : ∀ line ∈ lines, '\n' ∉ line.toList) :
    ∀ line ∈ functionLines lines, '\n' ∉ line.toList := by
  rw [functionLines]
  split
  · simp
  · refine List.forall_mem_map.2 fun line hline => ?_
    rw [String.toList_append, List.mem_append, not_or]
    exact ⟨by decide, h line hline⟩

/-- The file is split into what comes before the drawing function, its header, what is drawn, and
    the braces that close it. -/
theorem fileLines_sourceFile (title : String) (size : Size Literal) {lines : List String}
    (hne : ∀ line ∈ lines, line ≠ "") (h : ∀ line ∈ lines, '\n' ∉ line.toList) :
    fileLines (sourceFile title size lines) =
      frontLines title size ++ drawHeader :: (functionLines lines ++ ["  \x7d", "\x7d", ""]) := by
  have hclosing : ∀ line ∈ ["  \x7d", "\x7d"], '\n' ∉ line.toList := by decide
  have hlines := List.forall_mem_append.2 ⟨not_mem_frontLines title size,
    List.forall_mem_cons.2 ⟨show '\n' ∉ drawHeader.toList by decide,
      List.forall_mem_append.2 ⟨not_mem_functionLines h, hclosing⟩⟩⟩
  rw [fileLines_eq (toList_sourceFile title size hne) hlines, List.append_assoc, List.cons_append,
    List.append_assoc]
  rfl

/-! ## Reading the lines back -/

/-- The lines that a file draws with: those of the function that draws, four spaces further out. -/
def drawnLines (file : String) : List String :=
  let rest := ((fileLines file).dropWhile (· ≠ drawHeader)).tail
  ((rest.rdrop 3).filter (· ≠ "")).map fun line => String.ofList (line.toList.drop 4)

/-- The header of the drawing function is the first line of its kind, whatever the title. -/
theorem ne_drawHeader_of_mem_frontLines {title : String} {size : Size Literal} :
    ∀ line ∈ frontLines title size, line ≠ drawHeader := by
  have hstart {before after : String} (h : before.toList.isPrefixOf drawHeader.toList = false) :
      before ++ after ≠ drawHeader := by
    rintro heq
    rw [← heq, String.toList_append] at h
    exact Bool.noConfusion (h.symm.trans (List.isPrefixOf_iff_prefix.2 (List.prefix_append _ _)))
  have hname : s!"  static func svg{typeName title}() -> UIImage \x7b" ≠ drawHeader := by
    rw [String.append_assoc]
    exact hstart (by decide)
  have hsize : s!"    return UIGraphicsImageRenderer(size: {sizeText size}, format: f).image \x7b" ≠
      drawHeader := by
    rw [String.append_assoc]
    exact hstart (by decide)
  simp only [frontLines, List.forall_mem_cons]
  exact ⟨by decide, hname, by decide, by decide, hsize, by decide, by decide, by decide, by decide,
    by simp⟩

/-- Without the four spaces, and without the empty line that stands for no line, we have the lines
    again. -/
theorem map_drop_functionLines (lines : List String) :
    ((functionLines lines).filter (· ≠ "")).map (fun line => String.ofList (line.toList.drop 4)) =
      lines := by
  rw [functionLines]
  split
  · next h => rw [h]; rfl
  · have hkept : ∀ line ∈ lines.map ("    " ++ ·), decide (line ≠ "") = true := by
      refine List.forall_mem_map.2 fun line _ => decide_eq_true ?_
      rw [ne_eq, ← String.toList_inj, String.toList_append]
      exact List.cons_ne_nil _ _
    rw [List.filter_eq_self.2 hkept, List.map_map]
    refine (List.map_congr_left fun line _ => ?_).trans (List.map_id lines)
    rw [Function.comp_apply, String.toList_append]
    exact String.ofList_toList

/-- What is drawn can be read back from the file. -/
theorem drawnLines_sourceFile (title : String) (size : Size Literal) {lines : List String}
    (hne : ∀ line ∈ lines, line ≠ "") (h : ∀ line ∈ lines, '\n' ∉ line.toList) :
    drawnLines (sourceFile title size lines) = lines := by
  have hfront : ∀ line ∈ frontLines title size, decide (line ≠ drawHeader) = true :=
    fun line hline => decide_eq_true (ne_drawHeader_of_mem_frontLines line hline)
  have hclosing : (functionLines lines ++ ["  \x7d", "\x7d", ""]).rdrop 3 = functionLines lines :=
    List.rdrop_append_length
  rw [drawnLines, fileLines_sourceFile title size hne h, List.dropWhile_append_of_pos hfront,
    List.dropWhile_cons_of_neg (by simp), List.tail_cons, hclosing]
  exact map_drop_functionLines lines

/-- However a drawing is rendered, its lines are laid out by their blocks, none of them is empty or
    has a line break, and their brackets are nested and closed. The function that draws in the file
    has exactly these lines, four spaces further in, so they can be read back from the file. All
    this only asks of the texts in the commands that they close what they open, as those do that the
    backend makes (`textsClosed_of_represented`). -/
theorem laidOut_lines_and_drawnLines_sourceFile (renders : List (Drawing resources))
    (h : ∀ commands ∈ renders, ∀ c ∈ commands, DrawingCommand.Everywhere TextsClosed c)
    (title : String) (size : Size Literal) :
    let r : Rendering := renders.foldl Rendering.render {}
    let file := r.sourceFile title size
    LaidOut 0 r.lines ∧ (∀ line ∈ r.lines, line ≠ "" ∧ '\n' ∉ line.toList) ∧
      closersAfter [] (r.lines.flatMap String.toList) = some [] ∧
      fileLines file = frontLines title size ++
        drawHeader :: (functionLines r.lines ++ ["  \x7d", "\x7d", ""]) ∧
      drawnLines file = r.lines := by
  intro r file
  have hlaidOut : LaidOut 0 r.lines := laidOut_lines_foldl_render renders h
  have hlines := hlaidOut.ne_empty_and_not_mem
  have hne : ∀ line ∈ r.lines, line ≠ "" := fun line hline => (hlines line hline).1
  have hbreaks : ∀ line ∈ r.lines, '\n' ∉ line.toList := fun line hline => (hlines line hline).2
  exact ⟨hlaidOut, hlines, hlaidOut.closed [], fileLines_sourceFile title size hne hbreaks,
    drawnLines_sourceFile title size hne hbreaks⟩

/-- The badge has a mask and a pattern, and so blocks of all forms. -/
theorem laidOut_lines_and_drawnLines_sourceFile_badge :
    let r : Rendering := [badge 2, badge 0].foldl Rendering.render {}
    (∀ commands ∈ [badge 2, badge 0], ∀ c ∈ commands, DrawingCommand.Everywhere TextsClosed c) ∧
      LaidOut 0 r.lines ∧ drawnLines (r.sourceFile "badge" ⟨⟨8⟩, ⟨8⟩⟩) = r.lines := by
  have closed (digits : Nat) : ∀ c ∈ badge digits, DrawingCommand.Everywhere TextsClosed c :=
    fun c hc => textsClosed_of_represented (represented_of_mem_badge digits c hc)
  have h : ∀ commands ∈ [badge 2, badge 0], ∀ c ∈ commands,
      DrawingCommand.Everywhere TextsClosed c :=
    List.forall_mem_cons.2 ⟨closed 2, List.forall_mem_singleton.2 (closed 0)⟩
  obtain ⟨hlaidOut, _, _, _, hdrawn⟩ :=
    laidOut_lines_and_drawnLines_sourceFile [badge 2, badge 0] h "badge" ⟨⟨8⟩, ⟨8⟩⟩
  exact ⟨h, hlaidOut, hdrawn⟩

end SceneCode.Swift
