import Mathlib.Data.Set.Image
import SceneCode.Proofs.Agreement
import SceneCode.Scene.Shape

/-!
# Bounding boxes

The corners of a bounding box are folds over the points, in which NaN gives way to any number. So a
corner is not only the extreme of the points so far, but also says whether there has been a number
at all, in each coordinate on its own (`Binary.IsFirst`). Both corners are treated alike: one has
the coordinates that come first in the order of the values, the other those that come first in the
opposite order (`Binary.Orders`).

What comes first is determined by the set of the numbers, up to the sign of a zero
(`Binary.IsFirst.alike`). So neither the order of the points nor how often they occur matters, and
the size, which is a difference, is determined in the same way (`Binary.Alike.sub`).

* `Rect.isAround_of_around?_eq`: a bounding box reaches from the least to the greatest coordinates;
* `Rect.IsAround.map_eq`: there is only one such box, up to the signs of zeros;
* `Shape.around?_and_controlBounds?`: the bounding boxes of points, and those of shapes.
-/

namespace SceneCode

/-! ## What comes first -/

namespace Binary

variable {f : Format} {before : Binary f → Binary f → Prop} {x y z : Binary f}

/-- An order of the numbers by their values, in which NaN has no place. -/
structure Orders (before : Binary f → Binary f → Prop) : Prop where
  irrefl {x : Binary f} : ¬before x x
  isNaN_left {x y : Binary f} : before x y → x.isNaN = false
  isNaN_right {x y : Binary f} : before x y → y.isNaN = false
  trans {x y z : Binary f} : before x y → before y z → before x z
  /-- Every number that is not NaN comes before the later or after the earlier of two others. -/
  between {x y z : Binary f} : before x z → y.isNaN = false → before x y ∨ before y z
  alike {x y : Binary f} : x.isNaN = false → y.isNaN = false → ¬before x y → ¬before y x → x.Alike y

/-- The order may be turned around. -/
theorem Orders.swap (h : Orders before) : Orders fun x y => before y x where
  irrefl := h.irrefl
  isNaN_left := h.isNaN_right
  isNaN_right := h.isNaN_left
  trans hxy hyz := h.trans hyz hxy
  between hxz hy := (h.between hxz hy).symm
  alike hx hy hxy hyx := h.alike hx hy hyx hxy

/-- Numbers are ordered by their places, and NaN has none. -/
theorem lt_iff : x < y ↔ ∃ a b, x.place? = some a ∧ y.place? = some b ∧ a < b := by
  show x.less y = true ↔ _
  rw [less]
  cases x.place? <;> cases y.place? <;> simp

theorem isNaN_eq_false_iff : x.isNaN = false ↔ ∃ a, x.place? = some a := by
  cases x <;> simp [isNaN, place?]

theorem eq_nan (h : x.isNaN = true) : x = .nan := by
  cases x with
  | nan => rfl
  | real => cases h

theorem orders_lt : Orders fun x y : Binary f => x < y where
  irrefl h := by
    obtain ⟨a, b, ha, hb, hab⟩ := lt_iff.1 h
    exact hab.ne (Option.some.inj (ha.symm.trans hb))
  isNaN_left h := by
    obtain ⟨a, _, ha, _⟩ := lt_iff.1 h
    exact isNaN_eq_false_iff.2 ⟨a, ha⟩
  isNaN_right h := by
    obtain ⟨_, b, _, hb, _⟩ := lt_iff.1 h
    exact isNaN_eq_false_iff.2 ⟨b, hb⟩
  trans hxy hyz := by
    obtain ⟨a, b, ha, hb, hab⟩ := lt_iff.1 hxy
    obtain ⟨b', c, hb', hc, hbc⟩ := lt_iff.1 hyz
    obtain rfl := Option.some.inj (hb.symm.trans hb')
    exact lt_iff.2 ⟨a, c, ha, hc, hab.trans hbc⟩
  between hxz hy := by
    obtain ⟨a, c, ha, hc, hac⟩ := lt_iff.1 hxz
    obtain ⟨b, hb⟩ := isNaN_eq_false_iff.1 hy
    rcases lt_or_ge a b with hab | hba
    · exact .inl (lt_iff.2 ⟨a, b, ha, hb, hab⟩)
    · exact .inr (lt_iff.2 ⟨b, c, hb, hc, hba.trans_lt hac⟩)
  alike := by
    intro x y hx hy hxy hyx
    obtain ⟨a, ha⟩ := isNaN_eq_false_iff.1 hx
    obtain ⟨b, hb⟩ := isNaN_eq_false_iff.1 hy
    have hab : a = b := le_antisymm (not_lt.1 fun h => hyx (lt_iff.2 ⟨b, a, hb, ha, h⟩))
      (not_lt.1 fun h => hxy (lt_iff.2 ⟨a, b, ha, hb, h⟩))
    cases x with
    | nan => cases hx
    | real s r =>
      cases y with
      | nan => cases hy
      | real t r' => exact place?_real_eq_iff.1 (ha.trans (hab ▸ hb.symm))

/-- Of two numbers, the one that comes first; NaN gives way to the other, and of two numbers without
    an order the first one is taken. -/
def first (before : Binary f → Binary f → Prop) [DecidableRel before] (x y : Binary f) : Binary f :=
  if x.isNaN || before y x then y else x

theorem lesser_eq_first : lesser = first fun x y : Binary f => x < y := rfl

theorem greater_eq_first : greater = first fun x y : Binary f => y < x := rfl

/-- The number is one of those given, none of which comes before it, and it is only NaN if all of
    them are. -/
structure IsFirst (before : Binary f → Binary f → Prop) (xs : Set (Binary f)) (x : Binary f) :
    Prop where
  mem : x ∈ xs
  not_before : ∀ y ∈ xs, ¬before y x
  isNaN : x.isNaN = true → ∀ y ∈ xs, y.isNaN = true

/-- Which number comes first is determined by their set, up to the sign of a zero. -/
theorem IsFirst.alike {xs : Set (Binary f)} (h : Orders before) (hx : IsFirst before xs x)
    (hy : IsFirst before xs y) : x.Alike y := by
  cases hnan : x.isNaN with
  | true =>
    exact .inl ((eq_nan hnan).trans (eq_nan (hx.isNaN hnan y hy.mem)).symm)
  | false =>
    have hynan : y.isNaN = false := by
      by_contra hynan
      rw [hy.isNaN (Bool.eq_true_of_not_eq_false hynan) x hx.mem] at hnan
      cases hnan
    exact h.alike hnan hynan (hy.not_before x hx.mem) (hx.not_before y hy.mem)

section Fold

variable [DecidableRel before]

/-- The first of two numbers is one of them, and NaN only if both are. -/
theorem first_eq_or (x y : Binary f) : first before x y = x ∧ x.isNaN = false ∧ ¬before y x ∨
    first before x y = y ∧ (x.isNaN = true ∨ before y x) := by
  rw [first]
  split
  · next h => exact .inr ⟨rfl, by simpa using h⟩
  · next h => exact .inl ⟨rfl, by simpa using h⟩

/-- What comes first of the first two numbers and the others comes first of them all. -/
theorem IsFirst.insert (h : Orders before) {xs : Set (Binary f)}
    (hz : IsFirst before (Insert.insert (first before x y) xs) z) :
    IsFirst before (Insert.insert x (Insert.insert y xs)) z := by
  rcases @first_eq_or f before _ x y with ⟨heq, hx, hyx⟩ | ⟨heq, hyx⟩
  · rw [heq] at hz
    refine ⟨?_, ?_, fun hnan => ?_⟩
    · exact Set.insert_subset_insert (Set.subset_insert y xs) hz.mem
    · rintro w (rfl | rfl | hw) hwz
      · exact hz.not_before w (Set.mem_insert w xs) hwz
      · rcases h.between hwz hx with hwx | hxz
        · exact hyx hwx
        · exact hz.not_before x (Set.mem_insert x xs) hxz
      · exact hz.not_before w (Set.mem_insert_of_mem x hw) hwz
    · rw [hz.isNaN hnan x (Set.mem_insert x xs)] at hx
      cases hx
  · rw [heq] at hz
    refine ⟨Set.mem_insert_of_mem x hz.mem, ?_, fun hnan => ?_⟩
    · rintro w (rfl | hw) hwz
      · rcases hyx with hnan | hyw
        · rw [h.isNaN_left hwz] at hnan
          cases hnan
        · exact hz.not_before y (Set.mem_insert y xs) (h.trans hyw hwz)
      · exact hz.not_before w hw hwz
    · have hrest := hz.isNaN hnan
      rintro w (rfl | hw)
      · refine hyx.resolve_right fun hyw => ?_
        have hy := h.isNaN_left hyw
        rw [hrest y (Set.mem_insert y xs)] at hy
        cases hy
      · exact hrest w hw

/-- A fold takes what comes first of all numbers. -/
theorem isFirst_foldl (h : Orders before) (x : Binary f) (xs : List (Binary f)) :
    IsFirst before {y | y ∈ x :: xs} (xs.foldl (first before) x) := by
  induction xs generalizing x with
  | nil =>
    have hself {y : Binary f} (hy : y ∈ [x]) : y = x := List.mem_singleton.1 hy
    exact ⟨List.mem_singleton_self x, fun y hy => hself hy ▸ h.irrefl,
      fun hnan y hy => hself hy ▸ hnan⟩
  | cons y xs ih =>
    have hz := ih (first before x y)
    have hcons (z : Binary f) (zs : List (Binary f)) :
        {w | w ∈ z :: zs} = Insert.insert z {w | w ∈ zs} := Set.ext fun _ => List.mem_cons
    rw [hcons] at hz
    rw [hcons, hcons]
    exact hz.insert h

end Fold

/-! ## Sums and differences -/

section Sums

variable {s t : Bool} {a b : Fin (f.top + 1)}

/-- The exact sum of two finite numbers, as a multiple of `2 ^ unit`. -/
def exactSum (s t : Bool) (a b : Fin (f.top + 1)) (unit : ℤ) : ℤ :=
  (if s then -(f.multiple a unit : ℤ) else f.multiple a unit) +
    if t then -(f.multiple b unit : ℤ) else f.multiple b unit

theorem add_real (ha : a.val ≠ f.top) (hb : b.val ≠ f.top) : (real s a + real t b : Binary f) =
    let unit := min (f.exponent a) (f.exponent b)
    if exactSum s t a b unit = 0 then .real (s && t) 0
    else ofScaled (exactSum s t a b unit < 0) (exactSum s t a b unit).natAbs unit :=
  (if_neg ha).trans (if_neg hb)

/-- The sum before rounding does not depend on the order of its terms. -/
theorem exactSum_comm (unit : ℤ) : exactSum s t a b unit = exactSum t s b a unit := Int.add_comm _ _

/-- A zero adds nothing, whatever its sign. -/
theorem exactSum_zero (unit : ℤ) :
    exactSum s t (0 : Fin (f.top + 1)) b unit = exactSum false t 0 b unit := by
  have hzero : f.multiple 0 unit = 0 := by
    rw [Format.multiple, f.significand_zero, Nat.zero_mul]
  cases s with
  | false => rfl
  | true => simp [exactSum, hzero]

/-- Addition is commutative, also in the sign of zero. -/
theorem sum_comm (x y : Binary f) : x + y = y + x := by
  cases x with
  | nan => cases y <;> rfl
  | real s a =>
    cases y with
    | nan => rfl
    | real t b =>
      by_cases ha : a.val = f.top
      · by_cases hb : b.val = f.top
        · obtain rfl : a = b := Fin.ext (ha.trans hb.symm)
          by_cases hst : s = t
          · rw [hst]
          · exact ((if_pos ha).trans (if_pos ⟨ha, hst⟩)).trans
              ((if_pos ha).trans (if_pos ⟨ha, Ne.symm hst⟩)).symm
        · exact ((if_pos ha).trans (if_neg fun h => hb h.1)).trans
            ((if_neg hb).trans (if_pos ha)).symm
      · by_cases hb : b.val = f.top
        · exact ((if_neg ha).trans (if_pos hb)).trans
            ((if_pos hb).trans (if_neg fun h => ha h.1)).symm
        · rw [add_real ha hb, add_real hb ha, min_comm, Bool.and_comm]
          simp only [exactSum_comm]

theorem Alike.trans (hxy : x.Alike y) (hyz : y.Alike z) : x.Alike z := by
  rcases hxy with rfl | ⟨hx, hy⟩
  · exact hyz
  · rcases hyz with rfl | ⟨-, hz⟩
    · exact .inr ⟨hx, hy⟩
    · exact .inr ⟨hx, hz⟩

theorem Alike.neg (h : x.Alike y) : (-x).Alike (-y) := by
  rcases h with rfl | ⟨hx, hy⟩
  · exact .inl rfl
  · obtain ⟨s, rfl⟩ := exists_eq_of_isZero hx
    obtain ⟨t, rfl⟩ := exists_eq_of_isZero hy
    exact .inr ⟨isZero_real.2 rfl, isZero_real.2 rfl⟩

variable (hf : f.top ≠ 0)
include hf

/-- Numbers that are alike have sums that are alike: the sign of a zero only matters if the sum is
    zero. -/
theorem Alike.add_right (h : x.Alike y) (z : Binary f) : (x + z).Alike (y + z) := by
  rcases h with rfl | ⟨hx, hy⟩
  · exact .inl rfl
  · obtain ⟨s, rfl⟩ := exists_eq_of_isZero hx
    obtain ⟨t, rfl⟩ := exists_eq_of_isZero hy
    cases z with
    | nan => exact .inl rfl
    | real u b =>
      have hzero : ¬(0 : Fin (f.top + 1)).val = f.top := hf.symm
      by_cases hb : b.val = f.top
      · exact .inl (((if_neg hzero).trans (if_pos hb)).trans
          ((if_neg hzero).trans (if_pos hb)).symm)
      · rw [add_real hzero hb, add_real hzero hb]
        simp only [exactSum_zero (s := s), exactSum_zero (s := t)]
        split
        · exact .inr ⟨isZero_real.2 rfl, isZero_real.2 rfl⟩
        · exact .inl rfl

theorem Alike.sub {x' y' : Binary f} (hx : x.Alike x') (hy : y.Alike y') :
    (x - y).Alike (x' - y') := by
  have hright := hy.neg.add_right hf x'
  rw [sum_comm, sum_comm (-y')] at hright
  exact (hx.add_right hf (-y)).trans hright

end Sums

end Binary

/-! ## Boxes around points -/

/-- The rectangle reaches from the least to the greatest coordinates of some points. -/
structure Rect.IsAround (points : Set (Point Single)) (box : Rect Single) : Prop where
  x : Binary.IsFirst (fun x y => x < y) (Point.x '' points) box.origin.x
  y : Binary.IsFirst (fun x y => x < y) (Point.y '' points) box.origin.y
  size : ∃ high : Point Single,
    Binary.IsFirst (fun x y => y < x) (Point.x '' points) high.x ∧
      Binary.IsFirst (fun x y => y < x) (Point.y '' points) high.y ∧
        box.size = ⟨high.x - box.origin.x, high.y - box.origin.y⟩

/-- Points are folded in each coordinate on its own. -/
theorem foldl_point (op : Single → Single → Single) (p : Point Single) (ps : List (Point Single)) :
    ps.foldl (fun p q => ⟨op p.x q.x, op p.y q.y⟩) p =
      ⟨(ps.map Point.x).foldl op p.x, (ps.map Point.y).foldl op p.y⟩ := by
  induction ps generalizing p with
  | nil => rfl
  | cons q ps ih => exact ih _

/-- Folding over the points finds the first of their coordinates, in any such order. -/
theorem isFirst_map_foldl {before : Single → Single → Prop} [DecidableRel before]
    (h : Binary.Orders before) (coordinate : Point Single → Single) (p : Point Single)
    (ps : List (Point Single)) :
    Binary.IsFirst before (coordinate '' {q | q ∈ p :: ps})
      ((ps.map coordinate).foldl (Binary.first before) (coordinate p)) := by
  have hset : coordinate '' {q | q ∈ p :: ps} = {x | x ∈ coordinate p :: ps.map coordinate} :=
    Set.ext fun x => (List.mem_map (l := p :: ps)).symm
  rw [hset]
  exact Binary.isFirst_foldl h _ _

/-- What is found is around all of the points. -/
theorem Rect.isAround_of_around?_eq {ps : List (Point Single)} {box : Rect Single}
    (h : around? ps = some box) : box.IsAround {p | p ∈ ps} := by
  cases ps with
  | nil => cases h
  | cons p ps =>
    obtain rfl := Option.some.inj h
    have hlow : ps.foldl Point.lesser p = _ := foldl_point Binary.lesser p ps
    have hhigh : ps.foldl Point.greater p = _ := foldl_point Binary.greater p ps
    rw [Binary.lesser_eq_first] at hlow
    rw [Binary.greater_eq_first] at hhigh
    have hless := Binary.orders_lt (f := .binary32)
    refine ⟨?_, ?_, ps.foldl .greater p, ?_, ?_, rfl⟩
    · rw [hlow]
      exact isFirst_map_foldl hless Point.x p ps
    · rw [hlow]
      exact isFirst_map_foldl hless Point.y p ps
    · rw [hhigh]
      exact isFirst_map_foldl hless.swap Point.x p ps
    · rw [hhigh]
      exact isFirst_map_foldl hless.swap Point.y p ps

/-- Points have one bounding box, up to the signs of zeros. -/
theorem Rect.IsAround.map_eq {points : Set (Point Single)} {box box' : Rect Single}
    (h : box.IsAround points) (h' : box'.IsAround points) :
    box.map Binary.unsignedZero = box'.map Binary.unsignedZero := by
  have hless := Binary.orders_lt (f := .binary32)
  have hfinite : Format.binary32.top ≠ 0 := by decide
  have hx := h.x.alike hless h'.x
  have hy := h.y.alike hless h'.y
  obtain ⟨high, hright, hbelow, hsize⟩ := h.size
  obtain ⟨high', hright', hbelow', hsize'⟩ := h'.size
  have hwidth := (hright.alike hless.swap hright').sub hfinite hx
  have hheight := (hbelow.alike hless.swap hbelow').sub hfinite hy
  rw [Rect.map, Rect.map, Point.map, Point.map, Size.map, Size.map, hsize, hsize',
    hx.unsignedZero_eq, hy.unsignedZero_eq, hwidth.unsignedZero_eq, hheight.unsignedZero_eq]

/-- There is a box unless there is no point. -/
theorem Rect.around?_eq_none_iff {ps : List (Point Single)} : around? ps = none ↔ ps = [] := by
  cases ps <;> simp [around?]

/-- The bounding box depends on the set of the points only, up to the signs of zeros. -/
theorem Rect.around?_map_eq {ps qs : List (Point Single)} (h : ∀ p, p ∈ ps ↔ p ∈ qs) :
    (around? ps).map (Rect.map Binary.unsignedZero) =
      (around? qs).map (Rect.map Binary.unsignedZero) := by
  have hset : {p | p ∈ ps} = {p | p ∈ qs} := Set.ext h
  have hnone : around? ps = none ↔ around? qs = none := by
    simp only [around?_eq_none_iff, List.eq_nil_iff_forall_not_mem, h]
  cases hps : around? ps with
  | none => rw [hnone.1 hps]
  | some box =>
    cases hqs : around? qs with
    | none => exact absurd (hps.symm.trans (hnone.2 hqs)) (Option.some_ne_none box)
    | some box' =>
      have hbox := isAround_of_around?_eq hps
      rw [hset] at hbox
      exact congrArg some (hbox.map_eq (isAround_of_around?_eq hqs))

/-! ## Shapes -/

/-- The point defines a segment: it is its target, or one of its control points. -/
inductive Segment.Defines : Segment → Point Single → Prop
  | move (p : Point Single) : Defines (.move p) p
  | line (p : Point Single) : Defines (.line p) p
  | target (p c1 c2 : Point Single) : Defines (.cubic p c1 c2) p
  | control1 (p c1 c2 : Point Single) : Defines (.cubic p c1 c2) c1
  | control2 (p c1 c2 : Point Single) : Defines (.cubic p c1 c2) c2

/-- The points that define a shape, unless it is given by a rectangle. -/
def Shape.definingPoints? : Shape → Option (Set (Point Single))
  | .lines points => some {p | p ∈ points}
  | .polygon points => some {p | p ∈ points}
  | .path segments => some {p | ∃ segment ∈ segments, segment.Defines p}
  | .rect _ _ => none
  | .ellipse _ => none

/-- The points of a segment are those that define it. -/
theorem Segment.mem_points_iff {segment : Segment} {p : Point Single} :
    p ∈ segment.points ↔ segment.Defines p := by
  constructor
  · intro h
    cases segment with
    | move q =>
      obtain rfl := List.mem_singleton.1 h
      exact .move p
    | line q =>
      obtain rfl := List.mem_singleton.1 h
      exact .line p
    | cubic q c1 c2 =>
      simp only [points, List.mem_cons, List.not_mem_nil, or_false] at h
      rcases h with rfl | rfl | rfl
      · exact .control1 q p c2
      · exact .control2 q c1 p
      · exact .target p c1 c2
    | close => cases h
  · rintro (_ | _ | _ | _ | _) <;> simp [points]

theorem Segment.mem_flatMap_points_iff {segments : List Segment} {p : Point Single} :
    p ∈ segments.flatMap Segment.points ↔ ∃ segment ∈ segments, segment.Defines p := by
  simp only [List.mem_flatMap, mem_points_iff]

/-- The box of a shape is the bounding box of its points, in some order. -/
theorem Shape.exists_around?_eq {s : Shape} {points : Set (Point Single)}
    (h : s.definingPoints? = some points) :
    ∃ ps, (∀ p, p ∈ ps ↔ p ∈ points) ∧ s.controlBounds? = Rect.around? ps := by
  cases s with
  | lines ps | polygon ps =>
    obtain rfl := Option.some.inj h
    exact ⟨ps, fun p => Iff.rfl, rfl⟩
  | path segments =>
    obtain rfl := Option.some.inj h
    exact ⟨segments.flatMap Segment.points, fun p => Segment.mem_flatMap_points_iff, rfl⟩
  | rect | ellipse => cases h

/-- There is a bounding box exactly if there is a point. It reaches from the least to the greatest
    coordinates, where NaN is left out of account unless there is nothing else, and it is the same
    for all lists of the same points, up to the signs of zeros. The box of a shape that is given by
    points is the bounding box of these. -/
theorem Shape.around?_and_controlBounds? :
    (∀ ps : List (Point Single), Rect.around? ps = none ↔ ps = []) ∧
      (∀ ps box, Rect.around? ps = some box → box.IsAround {p | p ∈ ps}) ∧
      (∀ ps qs : List (Point Single), (∀ p, p ∈ ps ↔ p ∈ qs) →
        (Rect.around? ps).map (Rect.map Binary.unsignedZero) =
          (Rect.around? qs).map (Rect.map Binary.unsignedZero)) ∧
      ∀ (s : Shape) (points : Set (Point Single)), s.definingPoints? = some points →
        (s.controlBounds? = none ↔ points = ∅) ∧
        (∀ box, s.controlBounds? = some box → box.IsAround points) ∧
        ∀ ps : List (Point Single), (∀ p, p ∈ ps ↔ p ∈ points) →
          s.controlBounds?.map (Rect.map Binary.unsignedZero) =
            (Rect.around? ps).map (Rect.map Binary.unsignedZero) := by
  refine ⟨fun _ => Rect.around?_eq_none_iff, fun _ _ => Rect.isAround_of_around?_eq,
    fun _ _ => Rect.around?_map_eq, fun s points hs => ?_⟩
  obtain ⟨ps, hps, hbounds⟩ := exists_around?_eq hs
  obtain rfl : {p | p ∈ ps} = points := Set.ext hps
  rw [hbounds]
  refine ⟨?_, fun box => Rect.isAround_of_around?_eq,
    fun qs hqs => Rect.around?_map_eq fun p => (hqs p).symm⟩
  rw [Rect.around?_eq_none_iff, List.eq_nil_iff_forall_not_mem, Set.eq_empty_iff_forall_notMem]
  rfl

/-- A curve whose first point has no left end, against its points the other way round. -/
theorem Shape.around?_and_controlBounds?_curve :
    let start : Point Single := ⟨.nan, 1⟩
    let target : Point Single := ⟨2, .nan⟩
    let control1 : Point Single := ⟨-1, 0⟩
    let control2 : Point Single := ⟨.nan, -0⟩
    let segments : List Segment := [.move start, .cubic target control1 control2, .close]
    let ps := [control2, target, control1, control2, start]
    (∀ p, p ∈ ps ↔ ∃ segment ∈ segments, segment.Defines p) ∧
      (Shape.path segments).controlBounds? = some ⟨⟨-1, 0⟩, ⟨3, 1⟩⟩ ∧
      Rect.IsAround {p | ∃ segment ∈ segments, segment.Defines p} ⟨⟨-1, 0⟩, ⟨3, 1⟩⟩ ∧
      (Rect.around? ps).map (Rect.map Binary.unsignedZero) = some ⟨⟨-1, 0⟩, ⟨3, 1⟩⟩ := by
  intro start target control1 control2 segments ps
  have hpoints : segments.flatMap Segment.points = [start, control1, control2, target] := rfl
  have hps (p : Point Single) : p ∈ ps ↔ ∃ segment ∈ segments, segment.Defines p := by
    rw [← Segment.mem_flatMap_points_iff, hpoints]
    simp only [ps, List.mem_cons, List.not_mem_nil]
    tauto
  have hbounds : (Shape.path segments).controlBounds? = some ⟨⟨-1, 0⟩, ⟨3, 1⟩⟩ := by decide +kernel
  obtain ⟨-, -, -, hshape⟩ := around?_and_controlBounds?
  obtain ⟨-, haround, hequal⟩ := hshape (.path segments) _ rfl
  refine ⟨hps, hbounds, haround _ hbounds, ?_⟩
  rw [← hequal ps hps, hbounds]
  decide +kernel

end SceneCode
