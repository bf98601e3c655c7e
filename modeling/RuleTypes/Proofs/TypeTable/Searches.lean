import RuleTypes.Proofs.TypeTable.Layout

/-!
# Searches are exact and come to an end

Types refer to each other in circles, and the layout check follows the references. A search takes
one id off its stack in every round, and looks at a type only once. So it has its answer after as
many rounds as there were ids on the stack and are ids in the forms of the table
(`searchWithin_eq`), in any table and whatever circles there are. In a reachable table the answers
say exactly what can be reached: a struct by way of the fields of structs
(`Reachable.containsItself_exact`), and a struct without a layout by way of everything that stands
in a type (`Reachable.firstBroken?_exact`).
-/

namespace RuleTypes.TypeTable

open Relation

variable {t : TypeTable} {id part : TypeId} {form : Form}

/-! ## From type to type -/

/-- The first type is a struct, with or without a name, and the second is the type of a field. -/
inductive FieldLink (t : TypeTable) (id : TypeId) : TypeId → Prop
  | record {fields : List (String × TypeId)} {field : String × TypeId}
      (hform : t.form? id = some (.record fields)) (hfield : field ∈ fields) :
      FieldLink t id field.2
  | declared {name : String} {fields : List (String × TypeId)} {field : String × TypeId}
      (hform : t.form? id = some (.declared name fields)) (hfield : field ∈ fields) :
      FieldLink t id field.2

theorem fieldLink_iff : t.FieldLink id part ↔ t.HoldsByValue id part := by
  constructor
  · rintro (⟨hform, hfield⟩ | ⟨hform, hfield⟩)
    · exact ⟨_, hform, List.mem_map_of_mem hfield⟩
    · exact ⟨_, hform, List.mem_map_of_mem hfield⟩
  · rintro ⟨form, hform, hpart⟩
    obtain ⟨field, hfield, rfl⟩ := List.mem_map.mp hpart
    cases form with
    | record fields => exact .record hform hfield
    | declared name fields => exact .declared hform hfield
    | _ => cases hfield

/-- The second type stands in the first: as the type of a field, behind a pointer, as a parameter
or the result of a function, or as an argument of a generic. -/
inductive Link (t : TypeTable) (id : TypeId) : TypeId → Prop
  | field {part : TypeId} (h : t.FieldLink id part) : Link t id part
  | base {base : TypeId} (hform : t.form? id = some (.pointer base)) : Link t id base
  | param {params : List TypeId} {result param : TypeId}
      (hform : t.form? id = some (.function params result)) (hparam : param ∈ params) :
      Link t id param
  | result {params : List TypeId} {result : TypeId}
      (hform : t.form? id = some (.function params result)) : Link t id result
  | arg {name : String} {args : List TypeId} {arg : TypeId}
      (hform : t.form? id = some (.generic name args)) (harg : arg ∈ args) : Link t id arg

theorem link_iff : t.Link id part ↔ t.Mentions id part := by
  constructor
  · rintro (hfield | hform | ⟨hform, hparam⟩ | hform | ⟨hform, harg⟩)
    · exact (fieldLink_iff.mp hfield).mentions
    · exact ⟨_, hform, List.mem_singleton.mpr rfl⟩
    · exact ⟨_, hform, List.mem_append_left _ hparam⟩
    · exact ⟨_, hform, List.mem_append_right _ (List.mem_singleton.mpr rfl)⟩
    · exact ⟨_, hform, harg⟩
  · rintro ⟨form, hform, hpart⟩
    cases form with
    | auto | noValue | primitive => cases hpart
    | pointer base => exact List.mem_singleton.mp hpart ▸ .base hform
    | function params result =>
      obtain hparam | hresult := List.mem_append.mp hpart
      · exact .param hform hparam
      · exact List.mem_singleton.mp hresult ▸ .result hform
    | generic name args => exact .arg hform hpart
    | record | declared => exact .field (fieldLink_iff.mpr ⟨_, hform, hpart⟩)

theorem fieldLink_eq_holdsByValue (t : TypeTable) : t.FieldLink = t.HoldsByValue := by
  funext id part
  exact propext fieldLink_iff

theorem link_eq_mentions (t : TypeTable) : t.Link = t.Mentions := by
  funext id part
  exact propext link_iff

/-- Ids that are closed under references hold all that is reached from one of them. -/
theorem Refers.mem_of_closed {next : Form → List TypeId} (ids : List TypeId) (hid : id ∈ ids)
    (hclosed : ∀ i ∈ ids, ∀ form ∈ t.form? i, ∀ p ∈ next form, p ∈ ids)
    (h : ReflTransGen (t.Refers next) id part) : part ∈ ids := by
  induction h with
  | refl => exact hid
  | tail _ hrefers ih =>
    obtain ⟨form, hform, hmem⟩ := hrefers
    exact hclosed _ ih form hform _ hmem

/-! ## Rounds -/

section Rounds

variable {β : Type} {next : Form → List TypeId} {stop? : TypeId → Form → Option β}
  {visited stack : List TypeId}

/-- The search, given up after a number of rounds. Each takes one id off the stack. -/
def searchWithin (t : TypeTable) (next : Form → List TypeId) (stop? : TypeId → Form → Option β) :
    Nat → List TypeId → List TypeId → Option (Except Fault (Option β))
  | _, _, [] => some (.ok none)
  | 0, _, _ :: _ => none
  | rounds + 1, visited, id :: stack =>
    if visited.contains id = true then t.searchWithin next stop? rounds visited stack
    else
      match t.form? id with
      | none => some (.error (.unissued id))
      | some form =>
        match stop? id form with
        | some answer => some (.ok (some answer))
        | none => t.searchWithin next stop? rounds (id :: visited) ((next form).reverse ++ stack)

/-- **A search comes to an end**, in any table: each round takes an id off the stack, and what is
put on it is what the form of a new type lists. -/
theorem searchWithin_eq {rounds : Nat} (h : stack.length + t.linksLeft next visited ≤ rounds) :
    t.searchWithin next stop? rounds visited stack = some (t.search next stop? visited stack) := by
  -- a round takes one id, and there was one
  have hround : ∀ {id : TypeId} {stack : List TypeId} {left rounds : Nat},
      (id :: stack).length + left ≤ rounds → ∃ fewer, rounds = fewer + 1 ∧
        stack.length + left ≤ fewer := by
    intro id stack left rounds h
    rw [List.length_cons] at h
    exact ⟨rounds - 1, by omega, by omega⟩
  fun_induction t.search next stop? visited stack generalizing rounds with
  | case1 visited => rw [searchWithin]
  | case2 visited id stack hseen ih =>
    obtain ⟨fewer, rfl, hfewer⟩ := hround h
    rw [searchWithin, if_pos hseen, ih hfewer]
  | case3 visited id stack hseen hform =>
    obtain ⟨fewer, rfl, -⟩ := hround h
    rw [searchWithin, if_neg hseen, hform]
  | case4 visited id stack hseen form hform answer hstop =>
    obtain ⟨fewer, rfl, -⟩ := hround h
    rw [searchWithin, if_neg hseen, hform]
    simp only [hstop]
  | case5 visited id stack hseen form hform hstop ih =>
    obtain ⟨fewer, rfl, hfewer⟩ := hround h
    have hleft := t.linksLeft_cons next hseen hform
    rw [searchWithin, if_neg hseen, hform]
    simp only [hstop]
    refine ih ?_
    rw [List.length_append, List.length_reverse]
    omega

/-- What a search answers was the answer at a type that it reached. -/
theorem exists_of_search (hnext : ∀ id form, t.form? id = some form → ∀ part ∈ next form,
      part.index < t.size) (hstack : ∀ id ∈ stack, id.index < t.size) {answer : β}
    (h : t.search next stop? [] stack = .ok (some answer)) :
    ∃ root ∈ stack, ∃ id form, ReflTransGen (t.Refers next) root id ∧ t.form? id = some form ∧
      stop? id form = some answer := by
  obtain ⟨root, hroot, id, form, found, hreached, hform, hstop, heq⟩ | ⟨heq, -⟩ :=
    search_from stop? hnext [] stack hstack
  · obtain rfl : answer = found := Option.some.inj (Except.ok.inj (h.symm.trans heq))
    exact ⟨root, hroot, id, form, hreached, hform, hstop⟩
  · cases h.symm.trans heq

end Rounds

/-! ## Structs that hold themselves -/

/-- **Whether a struct holds itself is answered exactly**, in every reachable table and for every
type in it. The answer is there after at most as many rounds as the type and the structs of the
table have fields, so no circle keeps the search going; and it is yes exactly if a way of one or
more steps, each from a struct to the type of one of its fields, leads from the type back to it. -/
theorem Reachable.containsItself_exact (ht : t.Reachable) (hform : t.form? id = some form) :
    ∃ found : Option Unit,
      t.searchWithin heldByValue (fun other _ => if other = id then some () else none)
        ((heldByValue form).length + t.linksLeft heldByValue []) [] (heldByValue form).reverse =
          some (.ok found) ∧
      t.containsItself id = .ok found.isSome ∧
      (found.isSome = true ↔ TransGen t.FieldLink id id) := by
  obtain ⟨answer, hanswer, hiff⟩ := containsItself_ok ht.canonical (form?_eq_some_lt hform)
  obtain ⟨form', hform', hsearch⟩ := except_bind_eq_ok.mp hanswer
  obtain rfl : form = form' := Option.some.inj (hform.symm.trans (form_eq_ok.mp hform'))
  obtain ⟨found, hfound, hsome⟩ := except_bind_eq_ok.mp hsearch
  obtain rfl : found.isSome = answer := Except.ok.inj hsome
  refine ⟨found, ?_, hanswer, t.fieldLink_eq_holdsByValue ▸ hiff⟩
  rw [searchWithin_eq (by rw [List.length_reverse]), hfound]

/-- A struct with a field of type `Loop`, where a `Loop` holds itself in a struct without a name. -/
def loopTable : TypeTable :=
  [.reserve "Outer", .reserve "Loop", .record [("back", ⟨3⟩)], .fill ⟨3⟩ [("inner", ⟨4⟩)],
    .fill ⟨2⟩ [("loop", ⟨3⟩)]].foldl Op.apply (new .empty)

/-- The circle of the other two structs does not make the outer one hold itself. -/
theorem containsItself_exact_loopTable :
    loopTable.Reachable ∧ loopTable.FieldLink ⟨2⟩ ⟨3⟩ ∧ loopTable.FieldLink ⟨3⟩ ⟨4⟩ ∧
      loopTable.FieldLink ⟨4⟩ ⟨3⟩ ∧ loopTable.containsItself ⟨2⟩ = .ok false ∧
      loopTable.containsItself ⟨3⟩ = .ok true ∧ loopTable.containsItself ⟨4⟩ = .ok true := by
  have ht : loopTable.Reachable := (Reachable.new _).foldl _
  have houter : loopTable.form? ⟨2⟩ = some (.declared "Outer" [("loop", ⟨3⟩)]) := by decide
  have hloop : loopTable.form? ⟨3⟩ = some (.declared "Loop" [("inner", ⟨4⟩)]) := by decide
  have hinner : loopTable.form? ⟨4⟩ = some (.record [("back", ⟨3⟩)]) := by decide
  have h₂₃ : loopTable.FieldLink ⟨2⟩ ⟨3⟩ := .declared houter (List.mem_singleton.mpr rfl)
  have h₃₄ : loopTable.FieldLink ⟨3⟩ ⟨4⟩ := .declared hloop (List.mem_singleton.mpr rfl)
  have h₄₃ : loopTable.FieldLink ⟨4⟩ ⟨3⟩ := .record hinner (List.mem_singleton.mpr rfl)
  obtain ⟨found₂, -, hanswer₂, hiff₂⟩ := ht.containsItself_exact houter
  obtain ⟨found₃, -, hanswer₃, hiff₃⟩ := ht.containsItself_exact hloop
  obtain ⟨found₄, -, hanswer₄, hiff₄⟩ := ht.containsItself_exact hinner
  have hnot : found₂.isSome = false := by
    rw [← Bool.not_eq_true, hiff₂, fieldLink_eq_holdsByValue, TransGen.head'_iff]
    rintro ⟨first, ⟨form, hform, hfirst⟩, hrest⟩
    obtain rfl := Option.some.inj (houter.symm.trans hform)
    have hback := Refers.mem_of_closed [⟨3⟩, ⟨4⟩] (by rw [List.mem_singleton.mp hfirst]; decide)
      (by decide) hrest
    simp at hback
  refine ⟨ht, h₂₃, h₃₄, h₄₃, hnot ▸ hanswer₂, ?_, ?_⟩
  · rw [hanswer₃, hiff₃.mpr (.head h₃₄ (.single h₄₃))]
  · rw [hanswer₄, hiff₄.mpr (.head h₄₃ (.single h₃₄))]

/-! ## Structs without a layout -/

theorem brokenName?_eq_some_iff {names : Names} {name : String} :
    t.brokenName? names id form = some name ↔ ∃ fields, form = .declared name fields ∧
      ¬ (t.isSealed id = true ∧ names.get? name = some id) := by
  cases form with
  | declared other fields =>
    rw [brokenName?, Option.ite_none_left_eq_some]
    constructor
    · rintro ⟨hbroken, hname⟩
      obtain rfl := Option.some.inj hname
      exact ⟨fields, rfl, hbroken⟩
    · rintro ⟨_, heq, hbroken⟩
      obtain ⟨rfl, rfl⟩ := Form.declared.inj heq
      exact ⟨hbroken, rfl⟩
  | _ => simp [brokenName?]

/-- **The search for a struct without a layout is exact**, in every state of a check whose table is
reachable, and for every type in the table. The answer is there after at most one round for the type
and one for each id in the forms of the table. It is no name exactly if every declared struct that
can be reached from the type, the type itself included, is sealed and is what its name means; and a
name that it gives is that of a declared struct that can be reached and is not so. -/
theorem Reachable.firstBroken?_exact {s : Check.State} (ht : s.table.Reachable) {root : TypeId}
    (hroot : s.table.isIssued root = true) :
    ∃ found : Option String,
      s.table.searchWithin Form.components (s.table.brokenName? s.names)
        (1 + s.table.linksLeft Form.components []) [] [root] = some (.ok found) ∧
      s.table.firstBroken? s.names root = .ok found ∧
      (found = none ↔ ∀ id name fields, ReflTransGen s.table.Link root id →
        s.table.form? id = some (.declared name fields) →
        s.table.isSealed id = true ∧ s.names.get? name = some id) ∧
      ∀ name, found = some name → ∃ id fields, ReflTransGen s.table.Link root id ∧
        s.table.form? id = some (.declared name fields) ∧
        ¬ (s.table.isSealed id = true ∧ s.names.get? name = some id) := by
  have hstack : ∀ id ∈ [root], id.index < s.table.size := by
    intro id hid
    exact List.mem_singleton.mp hid ▸ isIssued_iff.mp hroot
  have hissued := ht.canonical.issued
  obtain ⟨found, hsearch, hnone⟩ := search_ok (s.table.brokenName? s.names) hissued [root] hstack
  rw [link_eq_mentions]
  refine ⟨found, ?_, hsearch, hnone.trans ⟨?_, ?_⟩, ?_⟩
  · rw [searchWithin_eq (by rw [List.length_singleton]), hsearch]
  · intro hall id name fields hreached hform
    by_contra hbroken
    have hsome := brokenName?_eq_some_iff.mpr ⟨fields, rfl, hbroken⟩
    cases hsome.symm.trans (hall root (List.mem_singleton.mpr rfl) id _ hreached hform)
  · intro hall first hfirst id form hreached hform
    obtain rfl := List.mem_singleton.mp hfirst
    rw [Option.eq_none_iff_forall_ne_some]
    intro name hsome
    obtain ⟨fields, rfl, hbroken⟩ := brokenName?_eq_some_iff.mp hsome
    exact hbroken (hall id name fields hreached hform)
  · rintro name rfl
    obtain ⟨first, hfirst, id, form, hreached, hform, hsome⟩ :=
      exists_of_search hissued hstack hsearch
    obtain rfl := List.mem_singleton.mp hfirst
    obtain ⟨fields, rfl, hbroken⟩ := brokenName?_eq_some_iff.mp hsome
    exact ⟨id, fields, hreached, hform, hbroken⟩

/-- A check in which `Gone` has been forgotten, and the fields of `Good` are a function that takes
a list of pointers to it, and a pointer to another `Good`. -/
def forgottenState : Check.State :=
  { Check.State.start ([.primitive "f64", .reserve "Good", .reserve "Gone", .pointer ⟨4⟩,
      .slice ⟨5⟩, .function [⟨6⟩] ⟨2⟩, .pointer ⟨3⟩, .fill ⟨4⟩ [],
      .fill ⟨3⟩ [("call", ⟨7⟩), ("next", ⟨8⟩)]].foldl Op.apply (new .standard)) 0 with
    names := ⟨[("Good", ⟨3⟩)]⟩ }

/-- The search goes through the circle and finds what was forgotten. -/
theorem firstBroken?_exact_forgottenState :
    forgottenState.table.Reachable ∧ forgottenState.table.isIssued ⟨3⟩ = true ∧
      forgottenState.table.firstBroken? forgottenState.names ⟨3⟩ = .ok (some "Gone") := by
  have ht : forgottenState.table.Reachable := (Reachable.new _).foldl _
  have hroot : forgottenState.table.isIssued ⟨3⟩ = true := by decide
  have hgood : forgottenState.table.form? ⟨3⟩ =
      some (.declared "Good" [("call", ⟨7⟩), ("next", ⟨8⟩)]) := by decide
  have hgone : forgottenState.table.form? ⟨4⟩ = some (.declared "Gone" []) := by decide
  have hcall : forgottenState.table.form? ⟨7⟩ = some (.function [⟨6⟩] ⟨2⟩) := by decide
  have hlist : forgottenState.table.form? ⟨6⟩ = some (.generic Form.sliceName [⟨5⟩]) := by
    decide
  have hpointer : forgottenState.table.form? ⟨5⟩ = some (.pointer ⟨4⟩) := by decide
  have hreached : ReflTransGen forgottenState.table.Link ⟨3⟩ ⟨4⟩ :=
    .head (.field (.declared hgood (List.mem_cons_self ..))) <|
      .head (.param hcall (List.mem_singleton.mpr rfl)) <|
        .head (.arg hlist (List.mem_singleton.mpr rfl)) <| .head (.base hpointer) .refl
  obtain ⟨found, -, hanswer, hnone, hsome⟩ := ht.firstBroken?_exact hroot
  refine ⟨ht, hroot, hanswer.trans (congrArg _ ?_)⟩
  cases found with
  | none =>
    obtain ⟨-, hmeans⟩ := hnone.mp rfl ⟨4⟩ "Gone" [] hreached hgone
    cases hmeans
  | some name =>
    obtain ⟨id, fields, hid, hform, hbroken⟩ := hsome name rfl
    have hids := Refers.mem_of_closed ((List.range' 2 7).map TypeId.mk) (by decide)
      (by decide) (link_eq_mentions _ ▸ hid)
    have hall : ∀ id ∈ (List.range' 2 7).map TypeId.mk, ∀ form ∈ forgottenState.table.form? id,
        ∀ name ∈ forgottenState.table.brokenName? forgottenState.names id form, name = "Gone" := by
      decide
    exact congrArg some (hall id hids _ hform name
      (brokenName?_eq_some_iff.mpr ⟨fields, rfl, hbroken⟩))

end RuleTypes.TypeTable
