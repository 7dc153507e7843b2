import SceneCode.Command.Values
import SceneCode.Proofs.Evaluation
import SceneCode.Proofs.Simplify

/-!
# Nested opacities multiply

Setting the alpha replaces the alpha in force, so no stream ever says that one alpha is multiplied
with another. Only layers do this: what is drawn inside a layer is composited with the alpha in
which the layer was opened. A mark is therefore subject to the alphas of the layers around it and
to the one that it is made with (`Event.alphas`).

For a node, these should be its own opacity and those of its ancestors, which are found on the path
from the root to the node (`Node.paths`). They are, because every node is entered at alpha one: a
node that is not opaque either opens a layer, in which the alpha starts at one again, or has
neither children nor content to which its alpha could apply.

* `alphas_replay_commands`: the alphas that a mark is subject to are the opacities on its path, as
  far as they are not one, in the same order.
-/

namespace SceneCode

section

variable {R : Resources} {Mask Pattern : Type}

/-! ## Alphas of marks -/

mutual

/-- The marks in an event, each with the alphas that it is subject to: those of the layers it is
    in, the outermost first, and the one that it is made with. -/
def Event.alphas : Event R Mask Pattern → List (List R.Scalar × Mark R)
  | .mark mark state => [([state.alpha], mark)]
  | .layer state contents => (allAlphas contents).map (Prod.map (state.alpha :: ·) id)
termination_by structural e => e

/-- The marks in some events, each with the alphas that it is subject to. -/
def allAlphas : List (Event R Mask Pattern) → List (List R.Scalar × Mark R)
  | [] => []
  | e :: rest => e.alphas ++ allAlphas rest
termination_by structural es => es

end

theorem allAlphas_append (first second : List (Event R Mask Pattern)) :
    allAlphas (first ++ second) = allAlphas first ++ allAlphas second := by
  induction first with
  | nil => rfl
  | cons e rest ih => rw [List.cons_append, allAlphas, allAlphas, ih, List.append_assoc]

/-- In a layer, marks are subject to a further alpha; whether the layer is recorded if it is empty
    makes no difference. -/
theorem allAlphas_enclose_layer (l : Layering R Mask Pattern) (s : DrawingState R Mask Pattern)
    (contents : List (Event R Mask Pattern)) :
    allAlphas (l.enclose s contents .layer) =
      (allAlphas contents).map (Prod.map (s.alpha :: ·) id) := by
  have hlayer : allAlphas [.layer s contents] =
      (allAlphas contents).map (Prod.map (s.alpha :: ·) id) := List.append_nil _
  rw [Layering.enclose]
  split
  · next hempty =>
    obtain rfl : contents = [] := by
      rw [Bool.and_eq_true, List.isEmpty_iff] at hempty
      exact hempty.1
    rfl
  · exact hlayer

/-- Marks that are drawn directly have the alpha of the state. -/
theorem allAlphas_marks (marks : List (Mark R)) (s : DrawingState R Mask Pattern) :
    allAlphas (marks.map (.mark · s)) = marks.map fun mark => ([s.alpha], mark) := by
  induction marks with
  | nil => rfl
  | cons mark rest ih =>
    rw [List.map_cons, List.map_cons, allAlphas, Event.alphas, ih]
    rfl

/-! ## Paths to marks -/

variable (b : Backend R Mask Pattern)

mutual

/-- The marks that a node and its descendants make, in order, each with the nodes on the path from
    the node to the one that makes it. -/
def Node.paths : Node → List (List Node × Mark R)
  | ⟨transforms, clip, opacity, blendMode, isolated, fill, stroke, content, children⟩ =>
    let n : Node :=
      ⟨transforms, clip, opacity, blendMode, isolated, fill, stroke, content, children⟩
    (allPaths children ++ (n.contentMarks b).map ([], ·)).map (Prod.map (n :: ·) id)
termination_by structural n => n

/-- The marks that some nodes and their descendants make, each with its path. -/
def allPaths : List Node → List (List Node × Mark R)
  | [] => []
  | n :: rest => n.paths ++ allPaths rest
termination_by structural ns => ns

end

/-- Every path in a node starts with the node. -/
theorem Node.paths_eq (n : Node) :
    n.paths b =
      (allPaths b n.children ++ (n.contentMarks b).map ([], ·)).map (Prod.map (n :: ·) id) := by
  cases n
  rfl

end

/-! ## The two agree -/

/-- The state in which scene values are drawn. -/
abbrev SceneState := DrawingState .scene (Mask .scene) (Pattern .scene)

/-- Something that has been drawn of scene values. -/
abbrev SceneEvent := Event .scene (Mask .scene) (Pattern .scene)

/-- The marks in some events, each with the alphas other than one that it is subject to. -/
def fading (events : List SceneEvent) :
    List (List Single × Mark .scene) :=
  (allAlphas events).map (Prod.map (List.filter (· ≠ 1)) id)

/-- The opacities less than one of some nodes. -/
def opacities (path : List Node) : List Single := (path.map Node.opacity).filter (· < 1)

theorem Single.ne_one_of_lt_one {x : Single} (h : x < 1) : x ≠ 1 := by
  rintro rfl
  exact absurd h (by decide)

/-- A node that is not opaque, and yet no layer, has nothing to draw. -/
theorem Node.draws_nothing {n : Node} (hopacity : n.opacity < 1) (h : ¬ n.IsLayer) :
    n.children = [] ∧ n.content = none :=
  ⟨Classical.not_not.1 fun hchildren => h (.inr ⟨hopacity, .inl hchildren⟩),
    Classical.not_not.1 fun hcontent => h (.inr ⟨hopacity, .inr hcontent⟩)⟩

/-- The opacity of the first node on a path comes first, if it is less than one. -/
theorem opacities_cons (n : Node) (path : List Node) :
    opacities (n :: path) = opacities [n] ++ opacities path := by
  by_cases h : n.opacity < 1 <;> simp [opacities, h]

section

variable {keepsEmpty : SceneState → Bool} {s : SceneState}

/-- Of the alpha of a node there remains its opacity, if that is less than one. -/
theorem filter_alpha_environment (n : Node) (hs : s.alpha = (1 : Single)) (alphas : List Single) :
    ((n.environment (.values true) s).alpha :: alphas).filter (· ≠ 1) =
      opacities [n] ++ alphas.filter (· ≠ 1) := by
  by_cases h : n.opacity < 1
  · have halpha : (n.environment (.values true) s).alpha = n.opacity := if_pos h
    simp [opacities, h, halpha, Single.ne_one_of_lt_one h]
  · have halpha : (n.environment (.values true) s).alpha = (1 : Single) := (if_neg h).trans hs
    simp [opacities, h, halpha]

/-- The layer of a node adds the opacity of the node. -/
theorem fading_enclose_layer (n : Node) (hs : s.alpha = (1 : Single))
    (contents : List SceneEvent) :
    fading (((Backend.values true).layering keepsEmpty).enclose (n.environment (.values true) s)
        contents .layer) =
      (fading contents).map (Prod.map (opacities [n] ++ ·) id) := by
  rw [fading, allAlphas_enclose_layer, fading, List.map_map, List.map_map]
  refine List.map_congr_left fun entry _ => Prod.ext ?_ rfl
  exact filter_alpha_environment n hs entry.1

/-- In a state of alpha one, the children and the content of a node are subject to no further
    alpha, if that is so for the children alone. -/
theorem fading_drawn {l : Layering .scene (Mask .scene) (Pattern .scene)} (n : Node)
    (hs : s.alpha = (1 : Single))
    (h : fading (eventsAll (.values true) l s n.children) =
      (allPaths (.values true) n.children).map (Prod.map opacities id)) :
    fading (eventsAll (.values true) l s n.children ++
        (n.contentMarks (.values true)).map (.mark · s)) =
      (allPaths (.values true) n.children ++
        (n.contentMarks (.values true)).map ([], ·)).map (Prod.map opacities id) := by
  have hmarks : fading ((n.contentMarks (.values true)).map (.mark · s)) =
      ((n.contentMarks (.values true)).map ([], ·)).map (Prod.map opacities id) := by
    rw [fading, allAlphas_marks, hs, List.map_map, List.map_map]
    rfl
  rw [List.map_append, ← h, ← hmarks, fading, allAlphas_append, List.map_append]
  rfl

/-- At alpha one, the alphas that the marks of a node are subject to are those on their paths, if
    that is so for the children. -/
theorem fading_events_of_children (n : Node) (hs : s.alpha = (1 : Single))
    (h : ∀ t : SceneState, t.alpha = (1 : Single) →
      fading (eventsAll (.values true) ((Backend.values true).layering keepsEmpty) t n.children) =
        (allPaths (.values true) n.children).map (Prod.map opacities id)) :
    fading (n.events (.values true) ((Backend.values true).layering keepsEmpty) s) =
      (n.paths (.values true)).map (Prod.map opacities id) := by
  have hpaths : (n.paths (.values true)).map (Prod.map opacities id) =
      ((allPaths (.values true) n.children ++
        (n.contentMarks (.values true)).map ([], ·)).map (Prod.map opacities id)).map
          (Prod.map (opacities [n] ++ ·) id) := by
    rw [Node.paths_eq, List.map_map, List.map_map]
    refine List.map_congr_left fun entry _ => Prod.ext ?_ rfl
    exact opacities_cons n entry.1
  rw [Node.events_eq, hpaths]
  by_cases hlayer : n.IsLayer
  · -- In the layer the alpha is one again.
    rw [if_pos ⟨rfl, hlayer⟩, fading_enclose_layer n hs]
    exact congrArg _ (fading_drawn n rfl (h _ rfl))
  · rw [if_neg fun hboth => hlayer hboth.2]
    by_cases hopacity : n.opacity < 1
    · -- The alpha is that of the node, but there is nothing to draw with it.
      obtain ⟨hchildren, hcontent⟩ := Node.draws_nothing hopacity hlayer
      have hmarks : n.contentMarks (.values true) = [] := by rw [Node.contentMarks, hcontent]
      rw [hchildren, hmarks]
      rfl
    · -- The node is opaque, and the alpha stays one.
      have halpha : (n.environment (.values true) s).alpha = (1 : Single) :=
        (if_neg hopacity).trans hs
      have hnone : opacities [n] = [] := by simp [opacities, hopacity]
      have hid : (Prod.map ([] ++ ·) id : List Single × Mark .scene → _) = id := rfl
      rw [hnone, hid, List.map_id]
      exact fading_drawn n halpha (h _ halpha)

end

mutual

/-- What is drawn by a node has the opacities of the nodes above it, by recursion on the node. -/
theorem fading_events (keepsEmpty : SceneState → Bool) :
    ∀ (n : Node) (s : SceneState), s.alpha = (1 : Single) →
      fading (n.events (.values true) ((Backend.values true).layering keepsEmpty) s) =
        (n.paths (.values true)).map (Prod.map opacities id)
  | ⟨transforms, clip, opacity, blendMode, isolated, fill, stroke, content, children⟩, _, hs =>
    fading_events_of_children
      ⟨transforms, clip, opacity, blendMode, isolated, fill, stroke, content, children⟩ hs
      (fading_eventsAll keepsEmpty children)

theorem fading_eventsAll (keepsEmpty : SceneState → Bool) :
    ∀ (ns : List Node) (s : SceneState), s.alpha = (1 : Single) →
      fading (eventsAll (.values true) ((Backend.values true).layering keepsEmpty) s ns) =
        (allPaths (.values true) ns).map (Prod.map opacities id)
  | [], _, _ => rfl
  | n :: rest, s, hs => by
    rw [eventsAll, allPaths, List.map_append, ← fading_events keepsEmpty n s hs,
      ← fading_eventsAll keepsEmpty rest s hs, fading, allAlphas_append, List.map_append]
    rfl

end

/-- When a node is replayed from alpha one, every mark is subject to the opacities less than one of
    the nodes on the path to the node that makes it, each once and in their order, and otherwise
    only to alphas of one. -/
theorem alphas_replay_commands (keepsEmpty : SceneState → Bool) (n : Node) (s : SceneState)
    (hs : s.alpha = (1 : Single)) :
    (allAlphas (replay ((Backend.values true).layering keepsEmpty) s (n.commands true)).events).map
        (Prod.map (List.filter (· ≠ (1 : Single))) id) =
      (n.paths (.values true)).map
        (Prod.map (fun path => (path.map Node.opacity).filter (· < 1)) id) := by
  have hreplay : (replay ((Backend.values true).layering keepsEmpty) s (n.commands true)).events =
      n.events (.values true) ((Backend.values true).layering keepsEmpty) s :=
    congrArg Replay.events (draws_lower (.values true) _ n s [] [])
  rw [hreplay]
  exact fading_events keepsEmpty n s hs

/-- A group at half opacity of a dot in a group at a quarter, an isolated dot, and an empty group
    that is not opaque either. -/
def fadedDots : Node :=
  let dot : Node := .withFillColor (.opaqueRgb 0 0 0) (.ofShape (.ellipse ⟨⟨0, 0⟩, ⟨4, 4⟩⟩))
  .withOpacity (1 / 2) (.group
    [.withOpacity (1 / 4) (.group [dot]), dot.isolate, .withOpacity (1 / 8) (.group [])])

theorem alphas_replay_commands_fadedDots :
    DrawingState.fresh.alpha = (1 : Single) ∧
      (allAlphas (replay (Backend.layering (.values true) fun _ => false) .fresh
          (fadedDots.commands true)).events).map
        (Prod.map (List.filter (· ≠ (1 : Single))) id) =
      [([1 / 2, 1 / 4], .fill (.ellipse ⟨⟨0, 0⟩, ⟨4, 4⟩⟩) .nonZero),
        ([1 / 2], .fill (.ellipse ⟨⟨0, 0⟩, ⟨4, 4⟩⟩) .nonZero)] := by
  have opaque_start : DrawingState.fresh.alpha = (1 : Single) := rfl
  refine ⟨opaque_start, ?_⟩
  rw [alphas_replay_commands _ fadedDots .fresh opaque_start]
  rfl

end SceneCode
