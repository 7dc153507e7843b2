import SceneCode.Proofs.Represented
import SceneCode.Proofs.Scopes
import SceneCode.Proofs.Tables

/-!
# Generated code is well scoped

A drawing, the closure of a mask and the callback of a pattern are each a scope with a context of
its own. The names in scope can be read off the tables: those of a family have the indices below
the number of its resources, and patterns have three families of names (`Tables.Declared`). A
declaration takes the next index of its family, so its name is new; a call refers to indices of
resources that have been entered. Along the statements of a stream this is followed from tables to
tables (`Scopes`), starting from empty tables, where only the context is known (`Standalone`).

* `wellScoped_of_mem_scopes`: all scopes of what has been rendered are well scoped, to any depth.
-/

namespace SceneCode.Swift

/-! ## Names on lines -/

namespace Line

theorem declares_append (first second : Line) :
    declares (first ++ second) = declares first ++ declares second :=
  List.filterMap_append

theorem refers_append (first second : Line) :
    refers (first ++ second) = refers first ++ refers second :=
  List.filterMap_append

theorem declares_listLine (colors : List Color) :
    declares (listLine (colors.map Color.line)) = [] := by
  rw [declares, filterMap_listLine fun _ => rfl, List.flatMap_map]
  exact List.flatMap_eq_nil_iff.2 fun _ _ => rfl

/-- The colours of a gradient refer to their spaces. -/
theorem refers_listLine (colors : List Color) :
    refers (listLine (colors.map Color.line)) = colors.map fun c => .space c.space := by
  rw [refers, filterMap_listLine fun _ => rfl, List.flatMap_map, List.map_eq_flatMap]
  rfl

end Line

/-- A call declares nothing. -/
theorem Call.declares_line (c : Call) : Line.declares c.line = [] := by
  cases c with
  | push bracket | pop bracket => cases bracket <;> rfl
  | transform step => cases step <;> rfl
  | _ => rfl

/-! ## Names in the tables -/

namespace Tables

/-- How many names of a family have been declared. -/
def count (t : Tables) : Family → Nat
  | .color => t.colors.length
  | .path => t.paths.length
  | .transform => t.matrices.length
  | .gradient | .locations => t.gradients.length
  | .image => t.images.length
  | .mask => t.masks
  | .pattern | .patternDraw | .patternCallback => t.patterns.length

/-- The name is in scope. -/
def Declared (t : Tables) : Name → Prop
  | .context => True
  | .space s => s ∈ t.spaces
  | .patternAlpha => .pattern ∈ t.spaces
  | .numbered family k => k < t.count family

/-- The next name of a family is new. -/
theorem not_declared_count (t : Tables) (family : Family) :
    ¬ t.Declared (.numbered family (t.count family)) :=
  Nat.lt_irrefl _

end Tables

/-- From the names in the first tables, the statements are scoped, they declare what is added in
    the second tables, and the scopes inside them are well scoped. -/
structure Scopes (t : Tables) (ss : List Statement) (t' : Tables) : Prop where
  inOrder : Scoped t.Declared (Statement.allCode ss)
  declared_iff (n : Name) : t'.Declared n ↔ t.Declared n ∨ n ∈ declared (Statement.allCode ss)
  inner : ∀ scope ∈ Code.allInnerScopes (Statement.allCode ss), scope.WellScoped

namespace Scopes

variable {t t' t'' : Tables}

theorem nil (t : Tables) : Scopes t [] t where
  inOrder := trivial
  declared_iff n := by simp [Statement.allCode, declared]
  inner := List.forall_mem_nil _

/-- Scopes of statements are composed from tables to tables. -/
theorem append {ss ss' : List Statement} (h : Scopes t ss t') (h' : Scopes t' ss' t'') :
    Scopes t (ss ++ ss') t'' where
  inOrder := by
    have hknown : (fun n => t.Declared n ∨ n ∈ declared (Statement.allCode ss)) = t'.Declared :=
      funext fun n => propext (h.declared_iff n).symm
    rw [Statement.allCode_append, scoped_append, hknown]
    exact ⟨h.inOrder, h'.inOrder⟩
  declared_iff n := by
    rw [h'.declared_iff, h.declared_iff, Statement.allCode_append, declared_append, List.mem_append,
      or_assoc]
  inner := by
    rw [Statement.allCode_append, Code.allInnerScopes_append]
    exact List.forall_mem_append.2 ⟨h.inner, h'.inner⟩

/-- A statement that declares nothing. -/
theorem use {s : Statement} (hdeclared : declared s.code = [])
    (hrefers : ∀ n ∈ s.code.flatMap Code.refers, t.Declared n)
    (hinner : Code.allInnerScopes s.code = []) : Scopes t [s] t := by
  have hcode : Statement.allCode [s] = s.code := s.allCode_singleton
  refine ⟨?_, fun n => ?_, ?_⟩
  · rw [hcode]
    exact scoped_uses hdeclared hrefers
  · simp [hcode, hdeclared]
  · rw [hcode, hinner]
    exact List.forall_mem_nil _

/-- A call needs the names of its arguments, as the context is always in scope. -/
theorem call {c : Call} (h : ∀ n ∈ Line.refers c.suffix, t.Declared n) : Scopes t [.call c] t := by
  have hrefers : (Statement.call c).code.flatMap Code.refers = .context :: Line.refers c.suffix :=
    List.append_nil _
  refine use ((declared_line _).trans c.declares_line) ?_ rfl
  rw [hrefers]
  exact List.forall_mem_cons.2 ⟨trivial, h⟩

/-- Statements that declare the next name of each of some families. -/
theorem enter (families : List Family) {ss : List Statement} (hspaces : t'.spaces = t.spaces)
    (hcount : ∀ f, t'.count f = t.count f + if f ∈ families then 1 else 0)
    (hdeclared : declared (Statement.allCode ss) = families.map fun f => .numbered f (t.count f))
    (hinOrder : Scoped t.Declared (Statement.allCode ss))
    (hinner : ∀ scope ∈ Code.allInnerScopes (Statement.allCode ss), scope.WellScoped) :
    Scopes t ss t' where
  inOrder := hinOrder
  inner := hinner
  declared_iff n := by
    rw [hdeclared]
    cases n with
    | context => simp [Tables.Declared]
    | space s => simp [Tables.Declared, hspaces]
    | patternAlpha => simp [Tables.Declared, hspaces]
    | numbered f k =>
      have hmem : Name.numbered f k ∈ families.map (fun g => .numbered g (t.count g)) ↔
          f ∈ families ∧ t.count f = k := by
        rw [List.mem_map]
        constructor
        · rintro ⟨g, hg, heq⟩
          obtain ⟨rfl, rfl⟩ := Name.numbered.inj heq
          exact ⟨hg, rfl⟩
        · rintro ⟨hf, rfl⟩
          exact ⟨f, hf, rfl⟩
      rw [hmem, Tables.Declared, Tables.Declared, hcount]
      by_cases hf : f ∈ families
      · simp only [hf, if_true, true_and]
        omega
      · simp only [hf, if_false, false_and, or_false, Nat.add_zero]

/-- A statement that declares the next name of one family. -/
theorem enterOne (family : Family) {s : Statement} {c : Code} (hs : s.code = [c])
    (hspaces : t'.spaces = t.spaces)
    (hcount : ∀ f, t'.count f = t.count f + if f = family then 1 else 0)
    (hdeclares : c.declares = [.numbered family (t.count family)])
    (hrefers : ∀ n ∈ c.refers, t.Declared n)
    (hinner : ∀ scope ∈ Code.allInnerScopes s.code, scope.WellScoped) : Scopes t [s] t' := by
  have hcode : Statement.allCode [s] = s.code := s.allCode_singleton
  refine enter [family] hspaces (fun f => ?_) ?_ ?_ (hcode ▸ hinner)
  · simp only [hcount, List.mem_singleton]
  · simp [hcode, hs, declared, hdeclares]
  · rw [hcode, hs]
    exact scoped_declaration hdeclares (t.not_declared_count family) hrefers trivial

end Scopes

/-! ## Closures -/

/-- The statements are well scoped with no other name than the context. -/
structure Standalone (ss : List Statement) : Prop where
  inOrder : Scoped (· = .context) (Statement.allCode ss)
  inner : ∀ scope ∈ Code.allInnerScopes (Statement.allCode ss), scope.WellScoped

/-- Empty tables have declared nothing, which leaves the context. -/
theorem declared_empty : Tables.Declared {} = (· = .context) := by
  funext n
  cases n with
  | numbered f k => cases f <;> simp [Tables.Declared, Tables.count]
  | _ => simp [Tables.Declared]

namespace Standalone

/-- What starts from empty tables needs the context only. -/
theorem of_scopes {ss : List Statement} {t : Tables} (h : Scopes {} ss t) : Standalone ss where
  inOrder := by
    rw [← declared_empty]
    exact h.inOrder
  inner := h.inner

variable {ss : List Statement} (h : Standalone ss)
include h

/-- Where the context is the parameter. -/
theorem wellScoped : Scope.WellScoped ⟨[.context], Statement.allCode ss⟩ := by
  refine Scoped.wellScoped ?_ (List.pairwise_singleton _ _)
  simpa only [List.mem_singleton] using h.inOrder

/-- The context of a pattern is the parameter of its callback. -/
theorem patternDraw (k : Nat) :
    ∀ scope ∈ Code.allInnerScopes (Statement.patternDraw k ss).code, scope.WellScoped := by
  rw [Statement.allInnerScopes_patternDraw]
  exact List.forall_mem_cons.2 ⟨h.wellScoped, h.inner⟩

/-- The closure of a mask declares the context on its first line. -/
theorem mask (k : Nat) (size : Size Literal) :
    ∀ scope ∈ Code.allInnerScopes (Statement.mask k size ss).code, scope.WellScoped := by
  have hcontext : (fun n => n ∈ [] ∨ n = Name.context) = (· = .context) := by simp
  have hbody : Scoped (· = .context) (Statement.allCode ss ++ [.line maskImageLine]) :=
    scoped_append.2 ⟨h.inOrder, scoped_uses rfl (List.forall_mem_singleton.2 (.inl rfl))⟩
  have hmask : Scoped (· ∈ ([] : List Name))
      ((maskContextLines size).map .line ++ Statement.allCode ss ++ [.line maskImageLine]) := by
    refine scoped_declaration rfl List.not_mem_nil (List.forall_mem_nil _) ?_
    rw [hcontext]
    -- Two calls turn the context before the statements.
    refine scoped_use rfl (List.forall_mem_singleton.2 rfl) ?_
    exact scoped_use rfl (List.forall_mem_singleton.2 rfl) hbody
  rw [Statement.allInnerScopes_mask]
  exact List.forall_mem_cons.2 ⟨hmask.wellScoped List.nodup_nil, h.inner⟩

end Standalone

/-! ## Declarations -/

section Declarations

open Tables

variable (t : Tables)

/-- A space is declared where it is new, and the space of patterns brings the name of its alpha
    value with it. -/
theorem scopes_declareSpace (s : ColorSpace) :
    Scopes t (t.declareSpace s) { t with spaces := enter s t.spaces } := by
  by_cases h : s ∈ t.spaces
  · rw [declareSpace, if_pos h, enter_of_mem h]
    exact .nil t
  · rw [declareSpace, if_neg h]
    have hspace : ¬ t.Declared (.space s) := h
    by_cases hs : s = .pattern
    · subst hs
      have halpha : ¬ (t.Declared .patternAlpha ∨ Name.patternAlpha = .space .pattern) := by
        simpa [Declared] using h
      have hdeclared : declared (Statement.allCode [.space .pattern, .patternAlpha]) =
          [.space .pattern, .patternAlpha] := rfl
      refine ⟨?_, fun n => ?_, List.forall_mem_nil _⟩
      · refine scoped_declaration rfl hspace (List.forall_mem_nil _) ?_
        exact scoped_declaration rfl halpha (List.forall_mem_nil _) trivial
      · rw [if_pos rfl, hdeclared]
        cases n <;> simp [Declared, mem_enter_iff, count]
    · rw [if_neg hs]
      have hdeclared : declared (Statement.allCode [.space s]) = [.space s] := rfl
      refine ⟨?_, fun n => ?_, List.forall_mem_nil _⟩
      · exact scoped_declaration rfl hspace (List.forall_mem_nil _) trivial
      · rw [hdeclared]
        cases n <;> simp [Declared, mem_enter_iff, count, Ne.symm hs]

/-- A new colour is declared in its space, which has been declared before. -/
theorem scopes_declareColor (c : Color) : Scopes t (t.declareColor c) (t.enterColor c) := by
  by_cases h : c ∈ t.colors
  · rw [declareColor, if_pos h, enterColor, if_pos h]
    exact .nil t
  · rw [declareColor, if_neg h, enterColor, if_neg h]
    refine (scopes_declareSpace t c.space).append
      (.enterOne .color rfl rfl (fun f => ?_) rfl ?_ (List.forall_mem_nil _))
    · cases f <;> simp [count]
    · exact List.forall_mem_singleton.2 (mem_enter_self c.space t.spaces)

theorem scopes_declareMatrix (m : Affine Literal) :
    Scopes t (t.declareMatrix m) (t.enterMatrix m) := by
  by_cases h : m ∈ t.matrices
  · rw [declareMatrix, if_pos h, enterMatrix, enter_of_mem h]
    exact .nil t
  · rw [declareMatrix, if_neg h, enterMatrix, enter_of_not_mem h]
    refine .enterOne .transform rfl rfl (fun f => ?_) rfl (List.forall_mem_nil _)
      (List.forall_mem_nil _)
    cases f <;> simp [count]

theorem scopes_declareImage (i : Image) : Scopes t (t.declareImage i) (t.enterImage i) := by
  by_cases h : i ∈ t.images
  · rw [declareImage, if_pos h, enterImage, enter_of_mem h]
    exact .nil t
  · rw [declareImage, if_neg h, enterImage, enter_of_not_mem h]
    refine .enterOne .image rfl rfl (fun f => ?_) rfl (List.forall_mem_nil _)
      (List.forall_mem_nil _)
    cases f <;> simp [count]

/-- The steps of a path refer to the path that they extend. -/
theorem scopes_extendPath {k : Nat} (h : t.Declared (.numbered .path k)) (steps : List PathStep) :
    Scopes t (steps.map (.extendPath k)) t := by
  induction steps with
  | nil => exact .nil t
  | cons step rest ih =>
    have hstep : Scopes t [.extendPath k step] t := .use rfl (List.forall_mem_singleton.2 h) rfl
    exact hstep.append ih

/-- A new path is declared, and then it is extended step by step. -/
theorem scopes_declarePath (p : Path) : Scopes t (t.declarePath p) (t.enterPath p) := by
  by_cases h : p ∈ t.paths
  · rw [declarePath, if_pos h, enterPath, enter_of_mem h]
    exact .nil t
  · rw [declarePath, if_neg h, enterPath, enter_of_not_mem h]
    have hpath : Scopes t [.path t.paths.length] { t with paths := t.paths ++ [p] } := by
      refine .enterOne .path rfl rfl (fun f => ?_) rfl (List.forall_mem_nil _)
        (List.forall_mem_nil _)
      cases f <;> simp [count]
    refine hpath.append (scopes_extendPath _ ?_ p.steps)
    exact (hpath.declared_iff _).2 (.inr List.mem_cons_self)

/-- The line of a gradient refers to the spaces of its colours between its own space and its
    locations. -/
theorem names_gradient (k : Nat) (colors : List Color) :
    ∃ content : Line, (Statement.gradient k colors).code = [.line content] ∧
      content.declares = [.numbered .gradient k] ∧
      content.refers = .space .rgb :: (colors.map fun c => .space c.space) ++
        [.numbered .locations k] := by
  refine ⟨_, rfl, ?_, ?_⟩
  · rw [Line.declares_append, Line.declares_append, Line.declares_listLine]
    rfl
  · rw [Line.refers_append, Line.refers_append, Line.refers_listLine]
    rfl

/-- A new gradient declares its locations and itself, and its colours are in one space, which has
    been declared before. -/
theorem scopes_declareGradient (g : Gradient) (hg : ∀ c ∈ g.colors, c.space = .rgb) :
    Scopes t (t.declareGradient g) (t.enterGradient g) := by
  by_cases h : g ∈ t.gradients
  · rw [declareGradient, if_pos h, enterGradient, if_pos h]
    exact .nil t
  · rw [declareGradient, if_neg h, enterGradient, if_neg h]
    obtain ⟨content, hcode, hdeclares, hrefers⟩ := names_gradient t.gradients.length g.colors
    have hcodes : Statement.allCode [.locations t.gradients.length g.locations,
        .gradient t.gradients.length g.colors] =
          (Statement.locations t.gradients.length g.locations).code ++ [.line content] := by
      rw [Statement.allCode, Statement.allCode, hcode]
      rfl
    refine (scopes_declareSpace t .rgb).append
      (.enter [.locations, .gradient] rfl (fun f => ?_) ?_ ?_ ?_)
    · cases f <;> simp [count]
    · rw [hcodes, declared_append, declared_line, hdeclares]
      rfl
    · rw [hcodes]
      refine scoped_declaration rfl (not_declared_count _ .locations) (List.forall_mem_nil _) ?_
      refine scoped_declaration hdeclares ?_ ?_ trivial
      · rintro (hold | hlocations)
        · exact not_declared_count { t with spaces := enter .rgb t.spaces } .gradient hold
        · cases hlocations
      · -- All colours of a gradient are in one space, which has been declared.
        have hrgb : Declared { t with spaces := enter .rgb t.spaces } (.space .rgb) :=
          mem_enter_self .rgb t.spaces
        intro n hn
        rw [Code.refers, hrefers, List.mem_append, List.mem_cons, List.mem_map,
          List.mem_singleton] at hn
        rcases hn with (rfl | ⟨c, hc, rfl⟩) | rfl
        · exact .inl hrgb
        · rw [hg c hc]
          exact .inl hrgb
        · exact .inr rfl
    · rw [hcodes]
      exact List.forall_mem_nil _

/-- A pattern has three names, with one index. -/
theorem scopes_declarePattern (p : DrawnPattern) (hinner : Standalone p.body) :
    Scopes { patterns := t.patterns } (t.declarePattern p)
      { patterns := enter p.pattern t.patterns } := by
  by_cases h : p.pattern ∈ t.patterns
  · rw [declarePattern, if_pos h, enter_of_mem h]
    exact .nil _
  · rw [declarePattern, if_neg h, enter_of_not_mem h]
    refine .enter [.patternDraw, .patternCallback, .pattern] rfl (fun f => ?_) rfl ?_ ?_
    · cases f <;> simp [count]
    · refine scoped_declaration rfl (not_declared_count _ .patternDraw) (List.forall_mem_nil _) ?_
      refine scoped_declaration rfl ?_ (List.forall_mem_singleton.2 (.inr rfl)) ?_
      · rintro (hold | hdraw)
        · exact not_declared_count { patterns := t.patterns } .patternCallback hold
        · cases hdraw
      refine scoped_declaration rfl ?_ (List.forall_mem_nil _) ?_
      · rintro ((hold | hdraw) | hcallback)
        · exact not_declared_count { patterns := t.patterns } .pattern hold
        · cases hdraw
        · cases hcallback
      -- Of the arguments of a pattern only its callbacks have a name.
      exact scoped_uses rfl (List.forall_mem_singleton.2 (.inl (.inr rfl)))
    · exact hinner.patternDraw t.patterns.length

end Declarations

/-! ## Resources at their indices

Once it has been entered, a resource can be used under the name with its index. -/

namespace Tables

variable (t : Tables)

theorem declared_color (c : Color) :
    (t.enterColor c).Declared (.numbered .color (t.colors.idxOf c)) := by
  rw [Declared, count, colors_enterColor]
  exact idxOf_lt_length_enter c t.colors

theorem declared_path (p : Path) :
    (t.enterPath p).Declared (.numbered .path (t.paths.idxOf p)) :=
  idxOf_lt_length_enter p t.paths

theorem declared_matrix (m : Affine Literal) :
    (t.enterMatrix m).Declared (.numbered .transform (t.matrices.idxOf m)) :=
  idxOf_lt_length_enter m t.matrices

theorem declared_gradient (g : Gradient) :
    (t.enterGradient g).Declared (.numbered .gradient (t.gradients.idxOf g)) := by
  rw [Declared, count, gradients_enterGradient]
  exact idxOf_lt_length_enter g t.gradients

theorem declared_image (i : Image) :
    (t.enterImage i).Declared (.numbered .image (t.images.idxOf i)) :=
  idxOf_lt_length_enter i t.images

theorem declared_pattern (p : Pattern resources) :
    (t.enterPattern p).Declared (.numbered .pattern (t.patterns.idxOf p)) :=
  idxOf_lt_length_enter p t.patterns

end Tables

/-! ## Commands -/

section Commands

open Tables

variable (t : Tables)

/-- A step of transformation refers to a matrix or to no name at all. -/
theorem scopes_transform (step : Transform Literal (Affine Literal)) :
    Scopes t (t.transformStatements step) (t.after (.transform step)) := by
  cases step with
  | matrix m =>
    exact (scopes_declareMatrix t m).append
      (.call (List.forall_mem_singleton.2 (declared_matrix t m)))
  | translate dx dy | scale sx sy | rotate angle => exact .call (List.forall_mem_nil _)

/-- A path is added to the context before the call that uses it. -/
theorem scopes_addPath (p : Path) {c : Call} (hc : Line.refers c.suffix = []) :
    Scopes t (t.declarePath p ++ [.call (.addPath (t.paths.idxOf p)), .call c])
      (t.enterPath p) := by
  have hadd : Scopes (t.enterPath p) [.call (.addPath (t.paths.idxOf p))] (t.enterPath p) :=
    .call (List.forall_mem_singleton.2 (declared_path t p))
  have huse : Scopes (t.enterPath p) [.call c] (t.enterPath p) := by
    refine .call ?_
    rw [hc]
    exact List.forall_mem_nil _
  exact (scopes_declarePath t p).append (hadd.append huse)

/-- What a mark draws, or draws with, is declared before the call. -/
theorem scopes_mark (mark : Mark resources) (h : MarkRepresented mark) :
    Scopes t (t.markStatements mark) (t.after (.mark mark)) := by
  cases mark with
  | stroke p | fill p rule =>
    exact scopes_addPath t p rfl
  | image i frame =>
    exact (scopes_declareImage t i).append
      (.call (List.forall_mem_singleton.2 (declared_image t i)))
  | linearGradient g start stop | radialGradient g startCenter startRadius endCenter endRadius =>
    exact (scopes_declareGradient t g h.1.space_eq_rgb).append
      (.call (List.forall_mem_singleton.2 (declared_gradient t g)))

/-- A mask always declares the next name, and its closure stands alone. -/
theorem scopes_clipMask (m : DrawnMask) (frame : Rect Literal) (hinner : Standalone m.body) :
    Scopes t (t.settingOutput (.clipMask m frame)).body { t with masks := t.masks + 1 } := by
  have hmask : Scopes t [.mask t.masks m.size m.body] { t with masks := t.masks + 1 } := by
    refine .enterOne .mask rfl rfl (fun f => ?_) rfl (List.forall_mem_nil _)
      (hinner.mask t.masks m.size)
    cases f <;> simp [count]
  have hnew : Declared { t with masks := t.masks + 1 } (.numbered .mask t.masks) :=
    Nat.lt_succ_self t.masks
  exact hmask.append (.call (List.forall_mem_singleton.2 hnew))

/-- A pattern has been declared in the preamble, and its space in the body. -/
theorem scopes_fillPattern (p : DrawnPattern) (hp : p.pattern ∈ t.patterns) :
    Scopes t (t.settingOutput (.fillPattern p)).body (t.enterPattern p.pattern) := by
  -- The pattern is in the tables already, so only its space may have to be declared.
  have hspace : Scopes t (t.declareSpace .pattern) (t.enterPattern p.pattern) := by
    rw [enterPattern, enter_of_mem hp]
    exact scopes_declareSpace t .pattern
  have hdeclared : (t.enterPattern p.pattern).Declared (.space .pattern) :=
    mem_enter_self .pattern t.spaces
  have halpha : (t.enterPattern p.pattern).Declared .patternAlpha :=
    mem_enter_self .pattern t.spaces
  refine hspace.append (.append (.call ?_) (.call ?_))
  · exact List.forall_mem_singleton.2 hdeclared
  · exact List.forall_mem_cons.2
      ⟨declared_pattern t p.pattern, List.forall_mem_singleton.2 halpha⟩

/-- Whatever a setting sets is declared before the call. -/
theorem scopes_setting (setting : DrawingSetting resources)
    (hinner : Standalone (scope (drawAll (DrawingSetting.inner setting))))
    (ht : (t.after (.set (drawSetting setting))).patterns = t.patterns) :
    Scopes t (t.settingOutput (drawSetting setting)).body
      (t.after (.set (drawSetting setting))) := by
  cases setting with
  | fill c | stroke c =>
    exact (scopes_declareColor t c).append
      (.call (List.forall_mem_singleton.2 (declared_color t c)))
  | fillPattern p => exact scopes_fillPattern t (drawPattern p) (ht ▸ mem_enter_self _ t.patterns)
  | clip p rule =>
    exact scopes_addPath t p rfl
  | clipMask mask frame =>
    obtain ⟨contents, size⟩ := mask
    exact scopes_clipMask t (drawMask (.of contents size)) frame hinner
  | lineWidth _ | lineCap _ | lineJoin _ | miterLimit _ | alpha _ | blendMode _ =>
    exact .call (List.forall_mem_nil _)

end Commands

/-- The statements are well scoped, whichever commands they come from. -/
def ScopesCommands (t : Tables) (ss : List Statement) (_ : Drawing resources) (t' : Tables) :
    Prop :=
  Scopes t ss t'

/-- Streams are well scoped if their commands are, one after the other. -/
theorem composes_scopesCommands : Composes ScopesCommands where
  nil := .nil
  append := .append

/-- What a command becomes is well scoped if the stream inside it is. -/
theorem follows_of_standalone (c : DrawingCommand resources) (h : CommandRepresented c)
    (hinner : Standalone (scope (drawAll (DrawingCommand.inner c)))) :
    Follows ScopesCommands c := by
  refine composes_scopesCommands.follows c (fun p hc t => ?_) fun t ht => ?_
  · subst hc
    have hscopes := scopes_declarePattern t (drawPattern p) (body_drawPattern p ▸ hinner)
    rwa [pattern_drawPattern] at hscopes
  · cases c with
    | push bracket | pop bracket => cases bracket <;> exact .call (List.forall_mem_nil _)
    | transform step => exact scopes_transform t step
    | set setting => exact scopes_setting t setting hinner ht
    | mark mark => exact scopes_mark t mark h

/-! ## Scopes of streams -/

/-- Preamble and body together need the context only. -/
theorem standalone_outputAll {commands : Drawing resources}
    (h : ∀ c ∈ commands, Follows ScopesCommands c) :
    Standalone (Tables.outputAll {} (drawAll commands)).statements := by
  obtain ⟨hpreamble, hbody⟩ := composes_scopesCommands.output h
  exact .of_scopes (hpreamble.append hbody)

/-- The statements of a command are well scoped, by induction on the streams inside it. -/
theorem follows_scopesCommands {c : DrawingCommand resources} (h : Represented c) :
    Follows ScopesCommands c := by
  refine follows_of_everywhere (fun c hc hinner => ?_) h
  refine follows_of_standalone c hc ?_
  rw [scope_drawAll]
  exact standalone_outputAll hinner

/-- However often streams have been rendered, what came out of it is well scoped, and so are the
    closures and callbacks in it, to any depth. -/
theorem wellScoped_of_mem_scopes (renders : List (Drawing resources))
    (h : ∀ commands ∈ renders, ∀ c ∈ commands, Represented c) :
    ∀ scope ∈ (renders.foldl Rendering.render {}).scopes, scope.WellScoped := by
  have hstandalone : Standalone (renders.foldl Rendering.render {}).output.statements := by
    rw [foldl_render]
    refine standalone_outputAll fun c hc => ?_
    obtain ⟨commands, hcommands, hc⟩ := List.mem_flatten.1 hc
    exact follows_scopesCommands (h commands hcommands c hc)
  exact List.forall_mem_cons.2 ⟨hstandalone.wellScoped, hstandalone.inner⟩

/-- The badge has two inner scopes, of its mask and of its ground. -/
theorem wellScoped_of_mem_scopes_badge :
    (∀ commands ∈ [badge 2], ∀ c ∈ commands, Represented c) ∧
      ([badge 2].foldl Rendering.render {}).scopes.length = 3 ∧
      ∀ scope ∈ ([badge 2].foldl Rendering.render {}).scopes, scope.WellScoped := by
  have represented : ∀ commands ∈ [badge 2], ∀ c ∈ commands, Represented c :=
    List.forall_mem_singleton.2 (represented_of_mem_badge 2)
  exact ⟨represented, by decide +kernel, wellScoped_of_mem_scopes [badge 2] represented⟩

end SceneCode.Swift
