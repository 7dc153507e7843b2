import SceneCode.Command.Values
import SceneCode.Swift.Resource

/-!
# Resources that agree have one representation

Scene values agree when the numbers in them are equal as values (`Comparison.numeric`), so there may
be zeros of different signs in them. In code, resources are the same or not. So every number has to
pass through the rounding of literals, which keeps numbers alike that differ in the sign of a zero
(`Binary.Alike`): each of its steps takes both zeros to zeros, or both to NaN
(`Binary.KeepsZeros`), and the last one drops the sign.

From numbers this carries over to the resources of each type (`Representation.Respects`), and from
those to commands with the streams inside them, by recursion on the first of two streams.

* `represent_respects`: what agrees as a value is represented by the same resource;
* `DrawingCommand.map_eq_of_agree`: commands that agree are the same in any representation that
  respects agreement.
-/

namespace SceneCode

/-! ## Numbers -/

/-- The least number of a format is zero. -/
theorem Format.significand_zero (f : Format) : f.significand 0 = 0 := by
  have hwidth : 0 < f.width := Nat.two_pow_pos _
  exact if_pos hwidth

namespace Binary

variable {f g : Format} {x y : Binary f}

/-- The numbers are the same, or zeros, which may differ in their signs. -/
def Alike (x y : Binary f) : Prop := x = y ∨ x.isZero = true ∧ y.isZero = true

/-- Zeros are the numbers of the lowest rank, with either sign. -/
theorem isZero_real {negative : Bool} {rank : Fin (f.top + 1)} :
    (real negative rank).isZero = true ↔ rank = 0 := by
  rw [isZero, beq_iff_eq, Fin.ext_iff]
  rfl

/-- A zero is a number and not NaN, with either sign. -/
theorem exists_eq_of_isZero (h : x.isZero = true) : ∃ negative, x = .real negative 0 := by
  cases x with
  | nan => cases h
  | real negative rank => exact ⟨negative, congrArg _ (isZero_real.1 h)⟩

/-- Numbers are ordered by their places, where the two zeros share one. -/
theorem place?_real_eq_iff {s t : Bool} {a b : Fin (f.top + 1)} :
    (real s a).place? = (real t b).place? ↔ (real s a).Alike (real t b) := by
  simp only [place?, Alike, isZero_real, Option.some.injEq, real.injEq, Fin.ext_iff]
  have hzero : (0 : Fin (f.top + 1)).val = 0 := rfl
  cases s <;> cases t <;> simp <;> omega

/-- Equality as values is to be alike, but NaN does not equal itself. -/
theorem equals_iff : x.equals y = true ↔ x.isNaN = false ∧ x.Alike y := by
  cases x with
  | nan => simp [equals, place?, isNaN]
  | real s a =>
    cases y with
    | nan => simp [equals, place?, isNaN, Alike, isZero]
    | real t b =>
      rw [← place?_real_eq_iff]
      simp [equals, place?, isNaN]

/-- The function takes zeros to zeros, or both of them to NaN. -/
def KeepsZeros (op : Binary f → Binary g) : Prop :=
  (∀ x, x.isZero = true → (op x).isZero = true) ∨ ∀ x, x.isZero = true → op x = .nan

/-- There are two zeros only, so these have to be checked. -/
theorem keepsZeros_of_zeros {op : Binary f → Binary g}
    (h : ∀ negative, (op (.real negative 0)).isZero = true) : KeepsZeros op := by
  refine .inl fun x hx => ?_
  obtain ⟨negative, rfl⟩ := exists_eq_of_isZero hx
  exact h negative

theorem keepsZeros_of_nan {op : Binary f → Binary g}
    (h : ∀ negative, op (.real negative 0) = .nan) : KeepsZeros op := by
  refine .inr fun x hx => ?_
  obtain ⟨negative, rfl⟩ := exists_eq_of_isZero hx
  exact h negative

theorem Alike.map {op : Binary f → Binary g} (h : x.Alike y) (hop : KeepsZeros op) :
    (op x).Alike (op y) := by
  rcases h with rfl | ⟨hx, hy⟩
  · exact .inl rfl
  · rcases hop with hzeros | hnan
    · exact .inr ⟨hzeros x hx, hzeros y hy⟩
    · exact .inl ((hnan x hx).trans (hnan y hy).symm)

/-- Without the sign of zero, numbers that are alike are the same. -/
theorem Alike.unsignedZero_eq (h : x.Alike y) : x.unsignedZero = y.unsignedZero := by
  rcases h with rfl | ⟨hx, hy⟩
  · rfl
  · rw [unsignedZero, unsignedZero, if_pos hx, if_pos hy]

/-! The steps of rounding keep zeros, as long as zero is not infinity (`f.top ≠ 0`). -/

/-- Zero is rounded to zero. -/
theorem isZero_ofRatio_zero (negative : Bool) (den : Nat) :
    (ofRatio negative 0 den : Binary f).isZero = true :=
  isZero_real.2 (Fin.ext (Nat.min_zero f.top))

theorem isZero_ofScaled_zero (negative : Bool) (exponent : Int) :
    (ofScaled negative 0 exponent : Binary f).isZero = true := by
  rw [ofScaled, Nat.zero_mul]
  exact isZero_ofRatio_zero negative _

/-- Zero is converted to a zero of the other format. -/
theorem keepsZeros_convert (hf : f.top ≠ 0) (g : Format) :
    KeepsZeros fun x : Binary f => x.convert g := by
  refine keepsZeros_of_zeros fun negative => ?_
  have hfinite : ¬(0 : Fin (f.top + 1)).val = f.top := hf.symm
  have hconvert : (real negative 0 : Binary f).convert g =
      ofScaled negative (f.significand 0) (f.exponent 0) := if_neg hfinite
  rw [f.significand_zero] at hconvert
  exact (congrArg isZero hconvert).trans (isZero_ofScaled_zero _ _)

/-- Zero is a whole number. -/
theorem keepsZeros_roundHalfAway : KeepsZeros (roundHalfAway : Binary f → Binary f) := by
  refine keepsZeros_of_zeros fun negative => ?_
  rw [roundHalfAway]
  split
  · exact isZero_real.2 rfl
  · have hwhole (den : Nat) : roundHalfUp 0 den = 0 := by
      rw [roundHalfUp, Nat.mul_zero, Nat.zero_add]
      exact Nat.div_eq_zero_iff.2 (by omega)
    rw [Fin.val_zero, f.significand_zero, hwhole]
    exact isZero_ofRatio_zero negative 1

/-- Zero times infinity is NaN. -/
theorem keepsZeros_mul (y : Binary f) : KeepsZeros (· * y) := by
  cases y with
  | nan => exact keepsZeros_of_nan fun _ => rfl
  | real t rank =>
    by_cases hinfinite : (0 : Fin (f.top + 1)).val = f.top ∨ rank.val = f.top
    · exact keepsZeros_of_nan fun _ => (if_pos hinfinite).trans (if_pos (.inl rfl))
    · refine keepsZeros_of_zeros fun s => ?_
      have hmul : (real s 0 * real t rank : Binary f) =
          ofScaled (s != t) (f.significand 0 * f.significand rank)
            (f.exponent 0 + f.exponent rank) := if_neg hinfinite
      rw [f.significand_zero, Nat.zero_mul] at hmul
      exact (congrArg isZero hmul).trans (isZero_ofScaled_zero _ _)

/-- Zero by zero is NaN. -/
theorem keepsZeros_div (hf : f.top ≠ 0) (y : Binary f) : KeepsZeros (· / y) := by
  have hfinite : ¬(0 : Fin (f.top + 1)).val = f.top := hf.symm
  cases y with
  | nan => exact keepsZeros_of_nan fun _ => rfl
  | real t rank =>
    by_cases hzero : rank.val = 0
    · have hfinite' : ¬rank.val = f.top := fun h => hf (h.symm.trans hzero)
      exact keepsZeros_of_nan fun _ =>
        (if_neg hfinite).trans ((if_neg hfinite').trans ((if_pos hzero).trans (if_pos rfl)))
    · refine keepsZeros_of_zeros fun s => ?_
      by_cases hinfinite : rank.val = f.top
      · have hdiv : (real s 0 / real t rank : Binary f) = .real (s != t) 0 :=
          (if_neg hfinite).trans (if_pos hinfinite)
        exact (congrArg isZero hdiv).trans (isZero_real.2 rfl)
      · have hdiv : (real s 0 / real t rank : Binary f) =
            let shift := f.exponent 0 - f.exponent rank
            ofRatio (s != t) (f.significand 0 * Nat.pow 2 shift.toNat)
              (f.significand rank * Nat.pow 2 (-shift).toNat) :=
          (if_neg hfinite).trans ((if_neg hinfinite).trans (if_neg hzero))
        simp only [f.significand_zero, Nat.zero_mul] at hdiv
        exact (congrArg isZero hdiv).trans (isZero_ofRatio_zero _ _)

end Binary

/-- Numbers that are equal as values have the same literal. -/
theorem Swift.Literal.ofSingle_eq_of_equals (places : Nat) (x y : Single)
    (h : x.equals y = true) : ofSingle places x = ofSingle places y := by
  have hsingle : Format.binary32.top ≠ 0 := by decide
  have hdouble : Format.binary64.top ≠ 0 := by decide
  have hscaled := ((Binary.equals_iff.1 h).2.map (Binary.keepsZeros_convert hsingle .binary64)).map
    (Binary.keepsZeros_mul (.ofScaled false (Nat.pow 10 places) 0))
  have hrounded := (hscaled.map Binary.keepsZeros_roundHalfAway).map
    (Binary.keepsZeros_div hdouble (.ofScaled false (Nat.pow 10 places) 0))
  exact congrArg mk (hrounded.map (Binary.keepsZeros_convert hdouble .binary32)).unsignedZero_eq

/-! ## Resources -/

/-- Resources that agree have one representation. -/
structure Representation.Respects {R S : Resources} (r : Representation R S) (t : Comparison R) :
    Prop where
  scalar : ∀ a b, t.scalar a b = true → r.scalar a = r.scalar b
  point : ∀ a b, t.point a b = true → r.point a = r.point b
  size : ∀ a b, t.size a b = true → r.size a = r.size b
  rect : ∀ a b, t.rect a b = true → r.rect a = r.rect b
  matrix : ∀ a b, t.matrix a b = true → r.matrix a = r.matrix b
  color : ∀ a b, t.color a b = true → r.color a = r.color b
  gradient : ∀ a b, t.gradient a b = true → r.gradient a = r.gradient b
  path : ∀ a b, t.path a b = true → r.path a = r.path b
  image : ∀ a b, t.image a b = true → r.image a = r.image b
  blendMode : ∀ a b, t.blendMode a b = true → r.blendMode a = r.blendMode b
  fillRule : ∀ a b, t.fillRule a b = true → r.fillRule a = r.fillRule b
  lineCap : ∀ a b, t.lineCap a b = true → r.lineCap a = r.lineCap b
  lineJoin : ∀ a b, t.lineJoin a b = true → r.lineJoin a = r.lineJoin b

section Coordinates

variable {α β : Type} {eq : α → α → Bool} {g : α → β}

/-- Lists that agree item by item have the same image. -/
theorem map_eq_map_of_isEqv (hg : ∀ a b, eq a b = true → g a = g b) {l l' : List α}
    (h : l.isEqv l' eq = true) : l.map g = l'.map g := by
  induction l generalizing l' with
  | nil =>
    cases l' with
    | nil => rfl
    | cons b l' => cases h
  | cons a l ih =>
    cases l' with
    | nil => cases h
    | cons b l' =>
      obtain ⟨hab, hrest⟩ := (Bool.and_eq_true ..).mp h
      rw [List.map_cons, List.map_cons, hg a b hab, ih hrest]

variable (hg : ∀ a b, eq a b = true → g a = g b)
include hg

theorem Point.map_eq_of_agree (p q : Point α) (h : p.agree eq q = true) : p.map g = q.map g := by
  simp only [Point.agree, Bool.and_eq_true] at h
  rw [Point.map, Point.map, hg _ _ h.1, hg _ _ h.2]

theorem Size.map_eq_of_agree (s t : Size α) (h : s.agree eq t = true) : s.map g = t.map g := by
  simp only [Size.agree, Bool.and_eq_true] at h
  rw [Size.map, Size.map, hg _ _ h.1, hg _ _ h.2]

theorem Rect.map_eq_of_agree (r s : Rect α) (h : r.agree eq s = true) : r.map g = s.map g := by
  simp only [Rect.agree, Bool.and_eq_true] at h
  rw [Rect.map, Rect.map, Point.map_eq_of_agree hg _ _ h.1, Size.map_eq_of_agree hg _ _ h.2]

theorem Affine.map_eq_of_agree (m n : Affine α) (h : m.agree eq n = true) :
    m.map g = n.map g := by
  simp only [Affine.agree, Bool.and_eq_true] at h
  obtain ⟨⟨⟨⟨⟨ha, hb⟩, hc⟩, hd⟩, htx⟩, hty⟩ := h
  rw [Affine.map, Affine.map, hg _ _ ha, hg _ _ hb, hg _ _ hc, hg _ _ hd, hg _ _ htx, hg _ _ hty]

end Coordinates

namespace Swift

section Represent

variable (places : Nat)

/-- Colours that agree have the same components, and grey ones too if they are taken as mixed
    colours. -/
theorem rgbComponents_eq_of_agree (c d : SceneCode.Color) (h : c.agree d = true) :
    rgbComponents places c = rgbComponents places d := by
  have hnumber := Literal.ofSingle_eq_of_equals places
  cases c with
  | clear =>
    cases d with
    | clear => rfl
    | _ => cases h
  | rgb red green blue alpha =>
    cases d with
    | rgb red' green' blue' alpha' =>
      simp only [SceneCode.Color.agree, Bool.and_eq_true, beq_iff_eq] at h
      obtain ⟨⟨⟨rfl, rfl⟩, rfl⟩, halpha⟩ := h
      simp only [rgbComponents, List.map_cons, hnumber _ _ halpha]
    | _ => cases h
  | gray white alpha =>
    cases d with
    | gray white' alpha' =>
      simp only [SceneCode.Color.agree, Bool.and_eq_true] at h
      simp only [rgbComponents, List.map_cons, hnumber _ _ h.1, hnumber _ _ h.2]
    | _ => cases h

/-- Colours agree only within one kind, and so are represented in the same space. -/
theorem representColor_eq_of_agree (c d : SceneCode.Color) (h : c.agree d = true) :
    representColor places c = representColor places d := by
  have hnumber := Literal.ofSingle_eq_of_equals places
  have hrgb := congrArg (Color.mk .rgb) (rgbComponents_eq_of_agree places c d h)
  cases c with
  | gray white alpha =>
    cases d with
    | gray white' alpha' =>
      simp only [SceneCode.Color.agree, Bool.and_eq_true] at h
      rw [representColor, representColor, hnumber _ _ h.1, hnumber _ _ h.2]
    | _ => cases h
  | clear | rgb _ _ _ _ =>
    cases d with
    | gray _ _ => cases h
    | _ => exact hrgb

/-- Gradients agree stop by stop, in the colours and in the offsets. -/
theorem representGradient_eq_of_agree (g h : SceneCode.Gradient) (heq : g.agree h = true) :
    representGradient places g = representGradient places h := by
  have hstop (s t : GradientStop) (h : s.agree t = true) :
      (⟨.rgb, rgbComponents places s.color⟩ : Color) = ⟨.rgb, rgbComponents places t.color⟩ ∧
        Literal.ofSingle places s.offset = Literal.ofSingle places t.offset := by
    simp only [GradientStop.agree, Bool.and_eq_true] at h
    exact ⟨congrArg _ (rgbComponents_eq_of_agree places _ _ h.2),
      Literal.ofSingle_eq_of_equals places _ _ h.1⟩
  exact (Gradient.mk.injEq ..).mpr
    ⟨map_eq_map_of_isEqv (fun s t h => (hstop s t h).1) heq,
      map_eq_map_of_isEqv (fun s t h => (hstop s t h).2) heq⟩

/-- Segments agree if they are of one kind and all their points agree. -/
theorem representSegment_eq_of_agree (s t : Segment) (h : s.agree t = true) :
    representSegment places s = representSegment places t := by
  have hpoint := Point.map_eq_of_agree (Literal.ofSingle_eq_of_equals places)
  cases s with
  | move p =>
    cases t with
    | move q => exact congrArg PathStep.move (hpoint p q h)
    | _ => cases h
  | line p =>
    cases t with
    | line q => exact congrArg PathStep.line (hpoint p q h)
    | _ => cases h
  | cubic p c1 c2 =>
    cases t with
    | cubic q d1 d2 =>
      simp only [Segment.agree, Bool.and_eq_true] at h
      obtain ⟨⟨hp, h1⟩, h2⟩ := h
      rw [representSegment, representSegment, hpoint p q hp, hpoint c1 d1 h1, hpoint c2 d2 h2]
    | _ => cases h
  | close =>
    cases t with
    | close => rfl
    | _ => cases h

/-- Shapes agree if they are of one kind and their numbers agree. -/
theorem representShape_eq_of_agree (s t : Shape) (h : s.agree t = true) :
    representShape places s = representShape places t := by
  have hnumber := Literal.ofSingle_eq_of_equals places
  have hpoints {ps qs : List (SceneCode.Point Single)}
      (h : ps.isEqv qs (Point.agree Binary.equals) = true) :=
    map_eq_map_of_isEqv (Point.map_eq_of_agree hnumber) h
  have hrect := Rect.map_eq_of_agree hnumber
  cases s with
  | lines ps =>
    cases t with
    | lines qs => rw [representShape, representShape, hpoints h]
    | _ => cases h
  | rect r radii =>
    cases t with
    | rect r' radii' =>
      simp only [Shape.agree, Bool.and_eq_true] at h
      -- The radii have been rounded before it is seen whether they are zero.
      rw [representShape, representShape, hrect r r' h.1,
        Size.map_eq_of_agree hnumber radii radii' h.2]
    | _ => cases h
  | ellipse r =>
    cases t with
    | ellipse r' => rw [representShape, representShape, hrect r r' h]
    | _ => cases h
  | path ss =>
    cases t with
    | path ts =>
      rw [representShape, representShape,
        map_eq_map_of_isEqv (representSegment_eq_of_agree places) h]
    | _ => cases h
  | polygon ps =>
    cases t with
    | polygon qs => rw [representShape, representShape, hpoints h]
    | _ => cases h

/-- Scene values that agree have one representation, with whatever number of decimal places. -/
theorem represent_respects : (represent places).Respects .numeric where
  scalar := Literal.ofSingle_eq_of_equals places
  point := Point.map_eq_of_agree (Literal.ofSingle_eq_of_equals places)
  size := Size.map_eq_of_agree (Literal.ofSingle_eq_of_equals places)
  rect := Rect.map_eq_of_agree (Literal.ofSingle_eq_of_equals places)
  matrix := Affine.map_eq_of_agree (Literal.ofSingle_eq_of_equals places)
  color := representColor_eq_of_agree places
  gradient := representGradient_eq_of_agree places
  path := representShape_eq_of_agree places
  image _ _ h := congrArg representImage (of_decide_eq_true h)
  blendMode _ _ h := congrArg blendModeKeyword (of_decide_eq_true h)
  fillRule _ _ h := congrArg fillRuleKeyword (of_decide_eq_true h)
  lineCap _ _ h := congrArg lineCapKeyword (of_decide_eq_true h)
  lineJoin _ _ h := congrArg lineJoinKeyword (of_decide_eq_true h)

end Represent

end Swift

/-! ## Streams -/

section Streams

variable {R S : Resources} {M N P Q : Type} {t : Comparison R} {r : Representation R S}

theorem Transform.map_eq_of_agree (hr : r.Respects t) (x y : Transform R.Scalar R.Matrix)
    (h : x.agree t.scalar t.matrix y = true) :
    x.map r.scalar r.matrix = y.map r.scalar r.matrix := by
  cases x <;> cases y <;> simp only [Transform.agree, Bool.and_eq_true, Bool.false_eq_true] at h
  case matrix.matrix m n => rw [Transform.map, Transform.map, hr.matrix m n h]
  case rotate.rotate a b => rw [Transform.map, Transform.map, hr.scalar a b h]
  all_goals
    rw [Transform.map, Transform.map, hr.scalar _ _ h.1, hr.scalar _ _ h.2]

/-- Marks agree in kind and in all the resources they are made of. -/
theorem Mark.map_eq_of_agree (hr : r.Respects t) (x y : Mark R) (h : x.agree t y = true) :
    x.map r = y.map r := by
  cases x <;> cases y <;> simp only [Mark.agree, Bool.and_eq_true, Bool.false_eq_true] at h
  case stroke.stroke => rw [Mark.map, Mark.map, hr.path _ _ h]
  case fill.fill => rw [Mark.map, Mark.map, hr.path _ _ h.1, hr.fillRule _ _ h.2]
  case image.image => rw [Mark.map, Mark.map, hr.image _ _ h.1, hr.rect _ _ h.2]
  case linearGradient.linearGradient =>
    obtain ⟨⟨hgradient, hstart⟩, hstop⟩ := h
    rw [Mark.map, Mark.map, hr.gradient _ _ hgradient, hr.point _ _ hstart, hr.point _ _ hstop]
  case radialGradient.radialGradient =>
    obtain ⟨⟨⟨⟨hgradient, hstart⟩, hradius⟩, hend⟩, hradius'⟩ := h
    rw [Mark.map, Mark.map, hr.gradient _ _ hgradient, hr.point _ _ hstart, hr.scalar _ _ hradius,
      hr.point _ _ hend, hr.scalar _ _ hradius']

/-- Masks and patterns may be mapped in any way, as only settings without them agree here. -/
theorem Setting.map_eq_of_agreeLeaf (hr : r.Respects t) (mask : M → N) (pattern : P → Q)
    (a b : Setting R M P) (h : a.agreeLeaf t b = true) :
    a.map r mask pattern = b.map r mask pattern := by
  cases a <;> cases b <;>
    simp only [Setting.agreeLeaf, Bool.and_eq_true, Bool.false_eq_true] at h
  case fill.fill | stroke.stroke => rw [Setting.map, Setting.map, hr.color _ _ h]
  case clip.clip => rw [Setting.map, Setting.map, hr.path _ _ h.1, hr.fillRule _ _ h.2]
  case lineCap.lineCap => rw [Setting.map, Setting.map, hr.lineCap _ _ h]
  case lineJoin.lineJoin => rw [Setting.map, Setting.map, hr.lineJoin _ _ h]
  case blendMode.blendMode => rw [Setting.map, Setting.map, hr.blendMode _ _ h]
  all_goals rw [Setting.map, Setting.map, hr.scalar _ _ h]

/-! By recursion on the first stream. The second one has to have the same form. -/

mutual

theorem Mask.map_eq_of_agree (hr : r.Respects t) :
    ∀ m n : Mask R, m.agree t n = true → m.map r = n.map r
  | .of contents size, .of contents' size', h => by
    obtain ⟨hcontents, hsize⟩ := (Bool.and_eq_true ..).mp h
    rw [Mask.map, Mask.map, Drawing.map_eq_of_agree hr contents contents' hcontents,
      hr.size size size' hsize]
termination_by structural m => m

theorem Pattern.map_eq_of_agree (hr : r.Respects t) :
    ∀ p q : Pattern R, p.agree t q = true → p.map r = q.map r
  | .of tile contents, .of tile' contents', h => by
    obtain ⟨htile, hcontents⟩ := (Bool.and_eq_true ..).mp h
    rw [Pattern.map, Pattern.map, hr.rect tile tile' htile,
      Drawing.map_eq_of_agree hr contents contents' hcontents]
termination_by structural p => p

theorem Drawing.map_eq_of_agree (hr : r.Respects t) :
    ∀ d e : List (DrawingCommand R), Drawing.agree t d e = true → Drawing.map r d = Drawing.map r e
  | [], [], _ => rfl
  | c :: rest, d :: rest', h => by
    obtain ⟨hfirst, hrest⟩ := (Bool.and_eq_true ..).mp h
    rw [Drawing.map, Drawing.map, DrawingCommand.map_eq_of_agree hr c d hfirst,
      Drawing.map_eq_of_agree hr rest rest' hrest]
termination_by structural d => d

/-- Commands that agree are the same in any representation that respects agreement. -/
theorem DrawingCommand.map_eq_of_agree (hr : r.Respects t) :
    ∀ c d : Command R (Mask R) (Pattern R), DrawingCommand.agree t c d = true →
      DrawingCommand.map r c = DrawingCommand.map r d
  | .push a, d, h => by
    cases d with
    | push b => exact congrArg Command.push (of_decide_eq_true h)
    | _ => cases h
  | .pop a, d, h => by
    cases d with
    | pop b => exact congrArg Command.pop (of_decide_eq_true h)
    | _ => cases h
  | .transform a, d, h => by
    cases d with
    | transform b => exact congrArg Command.transform (Transform.map_eq_of_agree hr a b h)
    | _ => cases h
  | .set a, d, h => by
    cases d with
    | set b => exact congrArg Command.set (DrawingSetting.map_eq_of_agree hr a b h)
    | _ => cases h
  | .mark a, d, h => by
    cases d with
    | mark b => exact congrArg Command.mark (Mark.map_eq_of_agree hr a b h)
    | _ => cases h
termination_by structural c => c

/-- Settings agree in their resources, and those that hold a stream agree in that stream too. -/
theorem DrawingSetting.map_eq_of_agree (hr : r.Respects t) :
    ∀ a b : Setting R (Mask R) (Pattern R), DrawingSetting.agree t a b = true →
      DrawingSetting.map r a = DrawingSetting.map r b
  | .fillPattern p, b, h => by
    cases b with
    | fillPattern q => exact congrArg Setting.fillPattern (Pattern.map_eq_of_agree hr p q h)
    | _ => cases h
  | .clipMask m f, b, h => by
    cases b with
    | clipMask n g =>
      obtain ⟨hmask, hframe⟩ := (Bool.and_eq_true ..).mp h
      rw [DrawingSetting.map, DrawingSetting.map, Mask.map_eq_of_agree hr m n hmask,
        hr.rect f g hframe]
    | _ => cases h
  | .fill c, b, h => by
    rw [DrawingSetting.map_eq, DrawingSetting.map_eq]
    exact Setting.map_eq_of_agreeLeaf hr _ _ _ _ h
  | .stroke _, b, h | .lineWidth _, b, h | .lineCap _, b, h | .lineJoin _, b, h
  | .miterLimit _, b, h | .clip _ _, b, h | .alpha _, b, h | .blendMode _, b, h => by
    rw [DrawingSetting.map_eq, DrawingSetting.map_eq]
    exact Setting.map_eq_of_agreeLeaf hr _ _ _ _ h
termination_by structural s => s

end

end Streams

end SceneCode
