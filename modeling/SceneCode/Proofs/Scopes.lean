import SceneCode.Proofs.Names
import SceneCode.Swift.Renderer

/-!
# Scopes of code

Code is a tree of *scopes*: the code of a drawing is one, whose parameter is the context, and so
is the body of every closure in it, to any depth. A scope is well scoped (`Scope.WellScoped`) if
every name is declared at most once in it, and every name is a parameter of the scope or declared
on a line before it is referred to. This is meant of the scope alone: that a closure could also
refer to what is declared around it is not made use of. What is declared and referred to on a line
is read off the pieces of its text.

Along a scope, the names that are known grow line by line (`Scoped`), and code that is scoped from
the parameters of a scope makes it well scoped (`Scoped.wellScoped`). That names differ is enough
for their texts to differ (`Name.text_injective`).
-/

namespace SceneCode.Swift

/-! ## Names in code -/

namespace Piece

def declares? : Piece → Option Name
  | constant n => some n
  | assignable n => some n
  | _ => none

def binds? : Piece → Option Name
  | parameter n => some n
  | _ => none

def refersTo? : Piece → Option Name
  | reference n => some n
  | _ => none

end Piece

namespace Line

/-- The names declared on a line. -/
def declares (line : Line) : List Name := line.filterMap Piece.declares?

/-- The parameters of the closure that a line opens. -/
def binds (line : Line) : List Name := line.filterMap Piece.binds?

/-- The names that a line refers to. -/
def refers (line : Line) : List Name := line.filterMap Piece.refersTo?

end Line

/-- Between the items of a list there are no names. -/
theorem filterMap_listLine {f : Piece → Option Name} (hf : ∀ text, f (.plain text) = none)
    (items : List Line) :
    (listLine items).filterMap f = items.flatMap fun line => line.filterMap f := by
  have hflatten : ((items.intersperse [.plain ", "]).flatten).filterMap f =
      items.flatMap fun line => line.filterMap f := by
    match items with
    | [] => rfl
    | [line] => simp
    | line :: next :: rest =>
      have hrest := filterMap_listLine hf (next :: rest)
      simp only [listLine, List.filterMap_append, List.filterMap_cons, List.filterMap_nil, hf,
        List.nil_append, List.append_nil] at hrest
      simp [hf, hrest]
  simp only [listLine, List.filterMap_append, List.filterMap_cons, List.filterMap_nil, hf,
    hflatten, List.nil_append, List.append_nil]

/-! ## Texts of lines -/

theorem toList_joined (texts : List String) :
    (joined "" texts).toList = texts.flatMap String.toList := by
  induction texts with
  | nil => rfl
  | cons text rest ih =>
    cases rest with
    | nil => simp [joined]
    | cons next rest =>
      rw [joined, String.toList_append, String.toList_append, ih, List.flatMap_cons]
      · simp
      · exact List.cons_ne_nil _ _

/-- A line is printed piece by piece. -/
theorem Line.toList_text (line : Line) :
    line.text.toList = line.flatMap fun piece => piece.text.toList := by
  rw [Line.text, toList_joined, List.flatMap_map]

/-! ## Scopes in code -/

/-- Code on its own, with the names of its parameters. -/
structure Scope where
  parameters : List Name
  code : List Code

namespace Code

/-- The names that code declares in the scope it stands in. -/
def declares : Code → List Name
  | .line content => content.declares
  | .closure opening _ closing => opening.declares ++ closing.declares

/-- The names that code refers to in the scope it stands in. -/
def refers : Code → List Name
  | .line content => content.refers
  | .closure opening _ closing => opening.refers ++ closing.refers

mutual

/-- The scopes inside a piece of code, to any depth. -/
def innerScopes : Code → List Scope
  | .line _ => []
  | .closure opening body _ => ⟨opening.binds, body⟩ :: allInnerScopes body
termination_by structural c => c

/-- The scopes inside some code, to any depth. -/
def allInnerScopes : List Code → List Scope
  | [] => []
  | c :: rest => c.innerScopes ++ allInnerScopes rest
termination_by structural cs => cs

end

theorem allInnerScopes_append (first second : List Code) :
    allInnerScopes (first ++ second) = allInnerScopes first ++ allInnerScopes second := by
  induction first with
  | nil => rfl
  | cons c rest ih => rw [List.cons_append, allInnerScopes, allInnerScopes, ih, List.append_assoc]

end Code

namespace Statement

theorem allCode_singleton (s : Statement) : allCode [s] = s.code := List.append_nil _

theorem allCode_append (first second : List Statement) :
    allCode (first ++ second) = allCode first ++ allCode second := by
  induction first with
  | nil => rfl
  | cons s rest ih => rw [List.cons_append, allCode, allCode, ih, List.append_assoc]

/-- The context is the parameter of the callback of a pattern. -/
theorem allInnerScopes_patternDraw (k : Nat) (body : List Statement) :
    Code.allInnerScopes (patternDraw k body).code =
      ⟨[.context], allCode body⟩ :: Code.allInnerScopes (allCode body) := by
  rw [code, Code.allInnerScopes, Code.allInnerScopes, List.append_nil]
  rfl

/-- The closure of a mask has no parameter. Its context is declared before the statements, and the
    image is taken from it after them. -/
theorem allInnerScopes_mask (k : Nat) (size : Size Literal) (body : List Statement) :
    Code.allInnerScopes (mask k size body).code =
      ⟨[], (maskContextLines size).map .line ++ allCode body ++ [.line maskImageLine]⟩ ::
        Code.allInnerScopes (allCode body) := by
  have hbody : Code.allInnerScopes
      ((maskContextLines size).map .line ++ allCode body ++ [.line maskImageLine]) =
        Code.allInnerScopes (allCode body) := by
    rw [Code.allInnerScopes_append, Code.allInnerScopes_append]
    exact List.append_nil _
  rw [code, Code.allInnerScopes, Code.allInnerScopes, List.append_nil, Code.innerScopes, hbody]
  rfl

end Statement

/-- The scopes of a drawing: its code is the body of a function of the context. -/
def Rendering.scopes (r : Rendering) : List Scope :=
  ⟨[.context], r.code⟩ :: Code.allInnerScopes r.code

/-- The names that are declared in code, in order. -/
def declared (code : List Code) : List Name := code.flatMap Code.declares

/-- No name is declared twice, nor like a parameter; and every name that is referred to is a
    parameter, or declared before. -/
structure Scope.WellScoped (scope : Scope) : Prop where
  nodup : ((scope.parameters ++ declared scope.code).map Name.text).Nodup
  earlier : ∀ before c after, scope.code = before ++ c :: after →
    ∀ n ∈ c.refers, n ∈ scope.parameters ++ declared before

/-! ## Code in order -/

/-- Where some names are known, all code refers to known names, and declares names that are not
    known, and known to the code after it. -/
def Scoped (known : Name → Prop) : List Code → Prop
  | [] => True
  | c :: rest =>
    (∀ n ∈ c.refers, known n) ∧ (c.declares.Nodup ∧ ∀ n ∈ c.declares, ¬ known n) ∧
      Scoped (fun n => known n ∨ n ∈ c.declares) rest

theorem declared_cons (c : Code) (rest : List Code) :
    declared (c :: rest) = c.declares ++ declared rest :=
  List.flatMap_cons

/-- What is declared on a line is declared in its scope. -/
theorem declared_line (content : Line) : declared [.line content] = content.declares :=
  List.append_nil _

theorem declared_append (first second : List Code) :
    declared (first ++ second) = declared first ++ declared second :=
  List.flatMap_append

/-- Code is scoped part by part, and the later part knows what the earlier one has declared. -/
theorem scoped_append {known : Name → Prop} {first second : List Code} :
    Scoped known (first ++ second) ↔
      Scoped known first ∧ Scoped (fun n => known n ∨ n ∈ declared first) second := by
  induction first generalizing known with
  | nil => simp [Scoped, declared]
  | cons c rest ih =>
    simp only [List.cons_append, Scoped, ih, declared_cons, List.mem_append, or_assoc, and_assoc]

section

variable {known : Name → Prop} {c : Code} {code rest : List Code}

/-- First a line that declares nothing. -/
theorem scoped_use (hc : c.declares = []) (hrefers : ∀ n ∈ c.refers, known n)
    (hrest : Scoped known rest) : Scoped known (c :: rest) := by
  refine ⟨hrefers, ?_, ?_⟩
  · rw [hc]
    exact ⟨List.nodup_nil, List.forall_mem_nil _⟩
  · simpa only [hc, List.not_mem_nil, or_false] using hrest

/-- First a line that declares one name. -/
theorem scoped_declaration {n : Name} (hc : c.declares = [n]) (hn : ¬ known n)
    (hrefers : ∀ m ∈ c.refers, known m) (hrest : Scoped (fun m => known m ∨ m = n) rest) :
    Scoped known (c :: rest) := by
  refine ⟨hrefers, ?_, ?_⟩
  · rw [hc]
    exact ⟨List.pairwise_singleton _ n, List.forall_mem_singleton.2 hn⟩
  · simpa only [hc, List.mem_singleton] using hrest

/-- Lines that declare nothing. -/
theorem scoped_uses (hcode : declared code = [])
    (hrefers : ∀ n ∈ code.flatMap Code.refers, known n) : Scoped known code := by
  induction code with
  | nil => trivial
  | cons c rest ih =>
    rw [declared_cons, List.append_eq_nil_iff] at hcode
    rw [List.flatMap_cons, List.forall_mem_append] at hrefers
    exact scoped_use hcode.1 hrefers.1 (ih hcode.2 hrefers.2)

end

/-- In code that is scoped, no name is declared twice, and none that was known before. -/
theorem Scoped.nodup_declared {known : Name → Prop} {code : List Code} (h : Scoped known code) :
    (declared code).Nodup ∧ ∀ n ∈ declared code, ¬ known n := by
  induction code generalizing known with
  | nil => exact ⟨List.nodup_nil, List.forall_mem_nil _⟩
  | cons c rest ih =>
    obtain ⟨_, ⟨hnodup, hfresh⟩, hrest⟩ := h
    obtain ⟨hnodup', hnew⟩ := ih hrest
    rw [declared_cons]
    refine ⟨List.nodup_append.2 ⟨hnodup, hnodup', fun n hn m hm heq => ?_⟩, fun n hn => ?_⟩
    · -- Whatever is declared later was not known by then, so it is another name.
      exact hnew m hm (.inr (heq ▸ hn))
    · rcases List.mem_append.1 hn with hn | hn
      · exact hfresh n hn
      · exact fun hk => hnew n hn (.inl hk)

/-- What is scoped from its parameters is a well-scoped scope. -/
theorem Scoped.wellScoped {parameters : List Name} {code : List Code}
    (h : Scoped (· ∈ parameters) code) (hparameters : parameters.Nodup) :
    Scope.WellScoped ⟨parameters, code⟩ where
  nodup := by
    obtain ⟨hnodup, hnew⟩ := h.nodup_declared
    refine List.Pairwise.map Name.text (fun _ _ hne htext => hne (Name.text_injective htext))
      (List.nodup_append.2 ⟨hparameters, hnodup, fun n hn m hm heq => ?_⟩)
    exact hnew m hm (heq ▸ hn)
  earlier before c after hcode n hn := by
    obtain rfl := hcode
    exact List.mem_append.2 ((scoped_append.1 h).2.1 n hn)

end SceneCode.Swift
