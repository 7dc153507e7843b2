import SceneCode.Proofs.Agreement
import SceneCode.Proofs.Backends
import SceneCode.Proofs.Interning

/-!
# Resources that agree share a name

Before they are represented, the resources of a scene are compared as values (`Item.agree`), and
those that agree have become one resource of the code by then (`Item.entry_eq_of_agree`). Where a
stream is rendered, the name of a resource is found from the resource alone: its index among the
distinct resources of the whole stream, wherever it is used (`uses_output_distinct`).

A scope has names of its own. That of a mask or of a pattern is rendered like a whole drawing, once
its stream has been simplified (`scope_drawAll_map`), so the same is true of it.

* `map_eq_and_uses_of_agree`: commands that agree are converted to the same command, and commands of
  a scope whose resources agree use one resource by one name.
-/

namespace SceneCode.Swift

/-! ## Resources of the scene -/

/-- A resource of the scene for which there will be a name. -/
inductive Item
  | color (color : SceneCode.Color)
  | path (shape : Shape)
  | transform (matrix : Affine Single)
  | gradient (gradient : SceneCode.Gradient)
  | image (image : SceneCode.Image)
  | pattern (pattern : Pattern .scene)

namespace Item

/-- Resources are compared as values; those of different kinds differ. -/
def agree : Item → Item → Bool
  | color c, color d => Comparison.numeric.color c d
  | path s, path t => Comparison.numeric.path s t
  | transform m, transform n => Comparison.numeric.matrix m n
  | gradient g, gradient h => Comparison.numeric.gradient g h
  | image i, image j => Comparison.numeric.image i j
  | pattern p, pattern q => Pattern.agree .numeric p q
  | _, _ => false

/-- The resource of the code that represents a resource of the scene. -/
def entry (precision : Nat) : Item → Entry
  | color c => .color ((representation precision).color c)
  | path s => .path ((representation precision).path s)
  | transform m => .transform ((representation precision).matrix m)
  | gradient g => .gradient ((representation precision).gradient g)
  | image i => .image ((representation precision).image i)
  | pattern p => .pattern (p.map (representation precision))

theorem entry_eq_of_agree (precision : Nat) {a b : Item} (h : a.agree b = true) :
    a.entry precision = b.entry precision := by
  have hr : (representation precision).Respects .numeric := represent_respects _
  cases a with
  | color c =>
    cases b with
    | color d => exact congrArg Entry.color (hr.color c d h)
    | _ => cases h
  | path s =>
    cases b with
    | path t => exact congrArg Entry.path (hr.path s t h)
    | _ => cases h
  | transform m =>
    cases b with
    | transform n => exact congrArg Entry.transform (hr.matrix m n h)
    | _ => cases h
  | gradient g =>
    cases b with
    | gradient g' => exact congrArg Entry.gradient (hr.gradient g g' h)
    | _ => cases h
  | image i =>
    cases b with
    | image j => exact congrArg Entry.image (hr.image i j h)
    | _ => cases h
  | pattern p =>
    cases b with
    | pattern q => exact congrArg Entry.pattern (Pattern.map_eq_of_agree hr p q h)
    | _ => cases h

end Item

/-- The resource of the scene that a command will use by its name. -/
def DrawingCommand.item? : DrawingCommand .scene → Option Item
  | .transform (.matrix m) => some (.transform m)
  | .set (.fill c) => some (.color c)
  | .set (.fillPattern p) => some (.pattern p)
  | .set (.stroke c) => some (.color c)
  | .set (.clip s _) => some (.path s)
  | .mark (.stroke s) => some (.path s)
  | .mark (.fill s _) => some (.path s)
  | .mark (.image i _) => some (.image i)
  | .mark (.linearGradient g _ _) => some (.gradient g)
  | .mark (.radialGradient g _ _ _ _) => some (.gradient g)
  | _ => none

theorem entry?_map (precision : Nat) (c : DrawingCommand .scene) :
    DrawingCommand.entry? (SceneCode.DrawingCommand.map (representation precision) c) =
      (DrawingCommand.item? c).map (Item.entry precision) := by
  match c with
  | .transform step => cases step <;> rfl
  | .set setting => cases setting <;> rfl
  | .mark mark => cases mark <;> rfl
  | .push _ | .pop _ => rfl

/-! ## Uses -/

/-- Where a stream is rendered, what is put out for the command at a place uses a resource by the
    name with an index, after the declaration if the resource is used there for the first time. -/
def UsesAt (commands : Drawing resources) (i : Nat) (e : Entry) (k : Nat) : Prop :=
  ∃ o : Output,
    (Rendering.render {} (commands.take (i + 1))).output =
        (Rendering.render {} (commands.take i)).output ++ o ∧
      o.Uses e k (e ∉ distinct e.kind (commands.take i))

section Uses

variable {c : DrawingCommand resources} {e : Entry}

/-- A command uses its resource by the index among the distinct resources of the whole stream. -/
theorem uses_output_distinct (he : DrawingCommand.entry? c = some e)
    (before after : Drawing resources) :
    ((Tables.afterAll {} (drawAll before)).output (drawCommand c)).Uses e
      ((distinct e.kind (before ++ c :: after)).idxOf e) (e ∉ distinct e.kind before) := by
  have hprefix := distinct_prefix_append e.kind (before ++ [c]) after
  rw [distinct_concat, enterUsed_of_kind_eq he rfl, List.append_assoc] at hprefix
  have huses := (Tables.afterAll {} (drawAll before)).uses_output c e he
  simp only [Tables.entries_afterAll] at huses
  rwa [← idxOf_eq_of_prefix_enter hprefix] at huses

/-- So the name does not depend on the place. The resource is in the table with this index. -/
theorem usesAt_idxOf_distinct {commands : Drawing resources} {i : Nat} (hc : commands[i]? = some c)
    (he : DrawingCommand.entry? c = some e) :
    UsesAt commands i e ((distinct e.kind commands).idxOf e) ∧
      (distinct e.kind commands)[(distinct e.kind commands).idxOf e]? = some e := by
  have hsplit : commands.take i ++ c :: commands.drop (i + 1) = commands := by
    obtain ⟨hi, rfl⟩ := List.getElem?_eq_some_iff.1 hc
    rw [← List.drop_eq_getElem_cons hi, List.take_append_drop]
  have hmem := List.mem_of_getElem?
    (getElem?_distinct_append_cons he rfl (commands.take i) (commands.drop (i + 1)))
  have huses := uses_output_distinct he (commands.take i) (commands.drop (i + 1))
  rw [hsplit] at hmem huses
  refine ⟨⟨_, ?_, huses⟩, List.getElem?_idxOf hmem⟩
  rw [List.take_add_one, hc, ← output_render_concat]
  rfl

/-- A command of the scene uses what represents its resource. -/
theorem usesAt_of_item {precision : Nat} {s : Drawing .scene} {i : Nat} {a : Item}
    (h : s[i]?.bind DrawingCommand.item? = some a) (he : a.entry precision = e) :
    let commands := Drawing.map (representation precision) s
    UsesAt commands i e ((distinct e.kind commands).idxOf e) ∧
      (distinct e.kind commands)[(distinct e.kind commands).idxOf e]? = some e := by
  obtain ⟨c, hc, ha⟩ := Option.bind_eq_some_iff.1 h
  have hget : (Drawing.map (representation precision) s)[i]? =
      some (SceneCode.DrawingCommand.map (representation precision) c) := by
    rw [Drawing.map_eq, List.getElem?_map, hc, Option.map_some]
  have hentry : DrawingCommand.entry?
      (SceneCode.DrawingCommand.map (representation precision) c) = some e := by
    rw [entry?_map, ha, Option.map_some, he]
  exact usesAt_idxOf_distinct hget hentry

end Uses

/-! ## Scopes -/

/-- Converted streams that are rendered one after the other are rendered as one. -/
theorem foldl_render_map (r : Representation .scene resources)
    (drawings : List (Drawing .scene)) :
    (drawings.map (Drawing.map r)).foldl Rendering.render {} =
      Rendering.render {} (Drawing.map r drawings.flatten) := by
  have hflatten : (drawings.map (Drawing.map r)).flatten = Drawing.map r drawings.flatten := by
    rw [Drawing.map_eq, List.map_flatten]
    exact congrArg List.flatten (List.map_congr_left fun d _ => Drawing.map_eq r d)
  rw [foldl_render, hflatten]
  rfl

/-- The scope of a mask or a pattern is the rendering of its simplified stream. -/
theorem scope_drawAll_map (r : Representation .scene resources) (contents : Drawing .scene) :
    scope (drawAll (Drawing.map r contents)) =
      (Rendering.render {}
        (Drawing.map r (Simplifications.all.apply contents))).output.statements := by
  rw [scope_drawAll, Drawing.map_eq, Drawing.map_eq, (keepsBrackets_map r).apply_map]
  rfl

/-- At any precision, commands of the scene that agree are converted to the same command, the
    streams inside them included. So commands of a stream whose resources agree use one resource
    with one index, which is its index in the table, and therefore one name. This goes for what is
    rendered by and by, which is the rendering of one stream, and for the scopes of masks and
    patterns, each of which is the rendering of a stream as well. -/
theorem map_eq_and_uses_of_agree (precision : Nat) :
    let r : Representation .scene resources := representation precision
    (∀ c d : DrawingCommand .scene, SceneCode.DrawingCommand.agree .numeric c d = true →
        SceneCode.DrawingCommand.map r c = SceneCode.DrawingCommand.map r d) ∧
      (∀ (s : Drawing .scene) (i j : Nat) (a b : Item),
        s[i]?.bind DrawingCommand.item? = some a → s[j]?.bind DrawingCommand.item? = some b →
          a.agree b = true → ∃ e k, a.entry precision = e ∧ b.entry precision = e ∧
            ((Rendering.render {} (Drawing.map r s)).tables.entries e.kind)[k]? = some e ∧
            UsesAt (Drawing.map r s) i e k ∧ UsesAt (Drawing.map r s) j e k) ∧
      (∀ drawings : List (Drawing .scene),
        (drawings.map (Drawing.map r)).foldl Rendering.render {} =
          Rendering.render {} (Drawing.map r drawings.flatten)) ∧
      ∀ contents : Drawing .scene,
        scope (drawAll (Drawing.map r contents)) =
          (Rendering.render {}
            (Drawing.map r (Simplifications.all.apply contents))).output.statements := by
  intro r
  refine ⟨SceneCode.DrawingCommand.map_eq_of_agree (represent_respects _), ?_,
    foldl_render_map r, scope_drawAll_map r⟩
  intro s i j a b hi hj hab
  have heq := Item.entry_eq_of_agree precision hab
  obtain ⟨huses, hfound⟩ := usesAt_of_item hi heq
  obtain ⟨huses', _⟩ := usesAt_of_item hj rfl
  refine ⟨_, _, heq, rfl, ?_, huses, huses'⟩
  exact (congrArg (·[_]?) (Tables.entries_afterAll _ _)).trans hfound

/-- A line from the origin, the first coordinate of which may have a sign. -/
def ray (negative : Bool) : Shape := .lines [⟨.real negative 0, 0⟩, ⟨1, 1⟩]

/-- Rays in a tile. -/
def rays (negative : Bool) : Pattern .scene :=
  .of ⟨⟨0, 0⟩, ⟨2, 2⟩⟩ [.mark (.stroke (ray negative))]

/-- A ray is stroked and then clipped to, between rays that fill. -/
def signedRays : Drawing .scene :=
  [.set (.fillPattern (rays false)), .mark (.stroke (ray true)), .set (.clip (ray false) .evenOdd),
    .set (.fillPattern (rays true))]

/-- The signs of the rays are seen neither in patterns nor in names. -/
theorem map_eq_and_uses_of_agree_signedRays :
    let r : Representation .scene resources := representation 2
    let fill (negative : Bool) : DrawingCommand .scene := .set (.fillPattern (rays negative))
    SceneCode.DrawingCommand.agree .numeric (fill false) (fill true) = true ∧
      SceneCode.DrawingCommand.map r (fill false) = SceneCode.DrawingCommand.map r (fill true) ∧
      ray true ≠ ray false ∧ (Item.path (ray true)).agree (.path (ray false)) = true ∧
      ∃ e k, e.kind = .path ∧ UsesAt (Drawing.map r signedRays) 1 e k ∧
        UsesAt (Drawing.map r signedRays) 2 e k := by
  intro r fill
  have hfill : SceneCode.DrawingCommand.agree .numeric (fill false) (fill true) = true := by
    decide +kernel
  have hpath : (Item.path (ray true)).agree (.path (ray false)) = true := by decide +kernel
  obtain ⟨hmap, huses, -⟩ := map_eq_and_uses_of_agree 2
  obtain ⟨e, k, he, -, -, hstroke, hclip⟩ := huses signedRays 1 2 _ _ rfl rfl hpath
  exact ⟨hfill, hmap _ _ hfill, by decide, hpath, e, k, congrArg Entry.kind he.symm, hstroke,
    hclip⟩

end SceneCode.Swift
