import SceneCode.Proofs.Interning
import SceneCode.Proofs.Lines

/-!
# Resources are told apart by their declarations

The lines on which a resource is declared (`Entry.lines`) are printed where it is used for the first
time (`Tables.exists_lines_output`). As lines determine statements, it is left to see that the
statements determine the resource. The first of them tells its kind and its index. A path goes on
with a statement for each of its steps, and a gradient has its locations and its colours in two
statements, neither of which is enough. Other resources have a single statement
(`Entry.declaration_inj`).

Patterns are left out here: what their declaration has inside is not the stream of the pattern but
what has become of it.

* `lines_representation_eq_iff`: resources are declared by the same lines just if they are equal.
-/

namespace SceneCode.Swift

namespace Entry

/-- The lines on which a resource is declared, under the name with an index. -/
def lines (k : Nat) (r : Entry) : List String :=
  Code.allLines (Statement.allCode (r.declaration k))

variable {j k : Nat} {r s : Entry}

/-- A path is declared empty, and extended by its steps after that. -/
theorem declaration_path_inj {p q : Path}
    (h : (path p).declaration j = (path q).declaration k) : j = k ∧ p = q := by
  obtain ⟨hfirst, hsteps⟩ := List.cons.inj h
  obtain rfl := Statement.path.inj hfirst
  have hextend : Function.Injective (Statement.extendPath j) := fun _ _ h =>
    (Statement.extendPath.inj h).2
  exact ⟨rfl, congrArg Path.mk (List.map_injective_iff.2 hextend hsteps)⟩

theorem declaration_gradient_inj {g h : Gradient}
    (heq : (gradient g).declaration j = (gradient h).declaration k) : j = k ∧ g = h := by
  obtain ⟨hfirst, hrest⟩ := List.cons.inj heq
  obtain ⟨rfl, hlocations⟩ := Statement.locations.inj hfirst
  obtain ⟨-, hcolors⟩ := Statement.gradient.inj (List.cons.inj hrest).1
  exact ⟨rfl, (Gradient.mk.injEq ..).mpr ⟨hcolors, hlocations⟩⟩

/-- The statements that declare a resource tell which one it is, and its index. -/
theorem declaration_inj (hr : r.kind ≠ .pattern) (hs : s.kind ≠ .pattern)
    (h : r.declaration j = s.declaration k) : j = k ∧ r = s := by
  cases r with
  | color c =>
    cases s with
    | color d =>
      obtain ⟨rfl, rfl⟩ := Statement.color.inj (List.cons.inj h).1
      exact ⟨rfl, rfl⟩
    | pattern q => exact absurd rfl hs
    | _ => cases (List.cons.inj h).1
  | path p =>
    cases s with
    | path q =>
      obtain ⟨rfl, rfl⟩ := declaration_path_inj h
      exact ⟨rfl, rfl⟩
    | pattern q => exact absurd rfl hs
    | _ => cases (List.cons.inj h).1
  | transform m =>
    cases s with
    | transform n =>
      obtain ⟨rfl, rfl⟩ := Statement.transform.inj (List.cons.inj h).1
      exact ⟨rfl, rfl⟩
    | pattern q => exact absurd rfl hs
    | _ => cases (List.cons.inj h).1
  | gradient g =>
    cases s with
    | gradient g' =>
      obtain ⟨rfl, rfl⟩ := declaration_gradient_inj h
      exact ⟨rfl, rfl⟩
    | pattern q => exact absurd rfl hs
    | _ => cases (List.cons.inj h).1
  | image i =>
    cases s with
    | image i' =>
      obtain ⟨rfl, rfl⟩ := Statement.image.inj (List.cons.inj h).1
      exact ⟨rfl, rfl⟩
    | pattern q => exact absurd rfl hs
    | _ => cases (List.cons.inj h).1
  | pattern p => exact absurd rfl hr

/-- No two resources are declared by the same lines, whatever their kinds and their names. -/
theorem lines_inj (hr : r.kind ≠ .pattern) (hs : s.kind ≠ .pattern)
    (h : r.lines j = s.lines k) : j = k ∧ r = s :=
  declaration_inj hr hs (Statement.allLines_injective h)

/-- Under one name, the lines are the same just if the values are. -/
theorem lines_eq_iff {α : Type} {g : α → Entry} (hg : Function.Injective g)
    (hkind : ∀ a, (g a).kind ≠ .pattern) (k : Nat) (a b : α) :
    (g a).lines k = (g b).lines k ↔ a = b := by
  constructor
  · intro h
    exact hg (lines_inj (hkind a) (hkind b) h).2
  · rintro rfl
    rfl

end Entry

/-- What a command prints has the lines that declare its resource, under the next name of the kind,
    if the resource is new. -/
theorem Tables.exists_lines_output (t : Tables) {c : DrawingCommand resources} {r : Entry}
    (hc : DrawingCommand.entry? c = some r) (hr : r ∉ t.entries r.kind) :
    ∃ before after : List String,
      Code.allLines (Statement.allCode (t.output (drawCommand c)).statements) =
        before ++ r.lines (t.entries r.kind).length ++ after := by
  obtain ⟨before, after, ho, -, -⟩ := t.uses_output c r hc
  rw [if_pos hr, List.idxOf_eq_length hr] at ho
  refine ⟨Code.allLines (Statement.allCode before), Code.allLines (Statement.allCode after), ?_⟩
  rw [ho, Statement.allCode_append, Statement.allCode_append, Code.allLines_append,
    Code.allLines_append]
  rfl

/-- Whatever the precisions at which two colours have been represented, they are equal just if the
    lines that declare them under one name are the same; and so are two matrices, two paths, two
    gradients, which are declared by the line of their locations and that of their colours, and two
    images, which have the same bytes then. There is one NaN, which equals itself and is written as
    itself. -/
theorem lines_representation_eq_iff (k precision precision' : Nat) :
    let r : Representation .scene resources := representation precision
    let r' : Representation .scene resources := representation precision'
    (∀ c d, (Entry.color (r.color c)).lines k = (Entry.color (r'.color d)).lines k ↔
        r.color c = r'.color d) ∧
      (∀ m n, (Entry.transform (r.matrix m)).lines k = (Entry.transform (r'.matrix n)).lines k ↔
        r.matrix m = r'.matrix n) ∧
      (∀ p q, (Entry.path (r.path p)).lines k = (Entry.path (r'.path q)).lines k ↔
        r.path p = r'.path q) ∧
      (∀ g h, (Entry.gradient (r.gradient g)).lines k = (Entry.gradient (r'.gradient h)).lines k ↔
        r.gradient g = r'.gradient h) ∧
      (∀ i j, (Entry.image (r.image i)).lines k = (Entry.image (r'.image j)).lines k ↔
        r.image i = r'.image j) ∧
      ∀ i j, r.image i = r'.image j ↔ i = j := by
  intro r r'
  refine ⟨fun c d => ?_, fun m n => ?_, fun p q => ?_, fun g h => ?_, fun i j => ?_, fun i j => ?_⟩
  · exact Entry.lines_eq_iff (fun _ _ => Entry.color.inj) (fun _ => Kind.noConfusion) k _ _
  · exact Entry.lines_eq_iff (fun _ _ => Entry.transform.inj) (fun _ => Kind.noConfusion) k _ _
  · exact Entry.lines_eq_iff (fun _ _ => Entry.path.inj) (fun _ => Kind.noConfusion) k _ _
  · exact Entry.lines_eq_iff (fun _ _ => Entry.gradient.inj) (fun _ => Kind.noConfusion) k _ _
  · exact Entry.lines_eq_iff (fun _ _ => Entry.image.inj) (fun _ => Kind.noConfusion) k _ _
  · exact representImage_injective.eq_iff

end SceneCode.Swift
