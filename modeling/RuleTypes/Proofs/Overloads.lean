import Mathlib.Data.List.Dedup
import Mathlib.Data.List.Perm.Lattice
import RuleTypes.Proofs.Session.Histories
import RuleTypes.Proofs.TypeTable.Permanence

/-!
# The choice among overloads

Operators are registered one after the other: a symbol, types of parameters, a type of the result.
A symbol keeps each of its signatures once, however often it is registered, since a table knows each
form by one id (`Holds`). So among the signatures of a symbol that take given arguments there is one
for each result that was registered for them, and the choice comes to counting these results
(`apply_eq_answer`). Neither the order of registrations nor other registrations matter.
-/

namespace RuleTypes

open TypeTable

namespace TypeTable

variable {t t' : TypeTable} {id : TypeId} {args candidates found : List TypeId}

theorem Extends.keeps (h : t.Extends t') : t.Keeps t' :=
  ⟨fun _ _ hform _ => h.form? hform, fun _ _ fields hform => ⟨fields, h.form? hform⟩⟩

theorem Keeps.trans {t'' : TypeTable} (h : t.Keeps t') (h' : t'.Keeps t'') : t.Keeps t'' where
  form? id form hform hdeclared := h'.form? id form (h.form? id form hform hdeclared) hdeclared
  declared id name fields hform := by
    obtain ⟨fields', hform'⟩ := h.declared id name fields hform
    exact h'.declared id name fields' hform'

/-- Types keep their texts. -/
theorem Keeps.listText_eq (h : t.Keeps t') (ht : t.Canonical) (ht' : t'.Canonical)
    (hargs : ∀ arg ∈ args, arg.index < t.size) : t'.listText args = t.listText args := by
  have htext : ∀ arg ∈ args, t'.text arg = t.text arg := by
    intro arg harg
    obtain ⟨o, ho⟩ := ht.exists_outline (hargs arg harg)
    rw [ht.text_of_outline ho, ht'.text_of_outline (h.outline ho)]
  unfold listText
  rw [except_mapM_congr htext]

theorem matching_sublist (h : t.matching args candidates = .ok found) :
    found.Sublist candidates := by
  induction candidates generalizing found with
  | nil =>
    obtain rfl : [] = found := by simpa [matching] using h
    exact .slnil
  | cons candidate candidates ih =>
    unfold matching at h
    obtain ⟨form, -, h⟩ := except_bind_eq_ok.mp h
    obtain ⟨rest, hrest, h⟩ := except_bind_eq_ok.mp h
    obtain rfl := Except.ok.inj h
    split
    · exact (ih hrest).cons_cons candidate
    · exact (ih hrest).cons candidate

/-- The result of a signature. -/
def resultAt (t : TypeTable) (signature : TypeId) : TypeId :=
  match t.form? signature with
  | some (.function _ result) => result
  | _ => signature

theorem resultAt_of_form? {params : List TypeId} {result : TypeId}
    (h : t.form? id = some (.function params result)) : t.resultAt id = result := by
  unfold resultAt
  rw [h]

end TypeTable

namespace Operators

variable {ε : Type} {ops ops' : Operators} {t t' : TypeTable} {symbol : String}
  {args params : List TypeId} {result : TypeId}
  {regs regs' : List (String × List TypeId × TypeId)}

/-! ## What is registered -/

theorem candidates_add (ops : Operators) (symbol other : String) (signature : TypeId) :
    (ops.add symbol signature).candidates other =
      if other = symbol ∧ signature ∉ ops.candidates symbol then
        ops.candidates symbol ++ [signature]
      else ops.candidates other := by
  unfold add
  simp only [candidates, NameMap.get?_insert]
  by_cases hother : other = symbol
  · subst hother
    by_cases hknown : signature ∈ (ops.overloads.get? other).getD [] <;> simp [hknown]
  · simp [hother]

theorem mem_candidates_add {other : String} {id signature : TypeId} :
    id ∈ (ops.add symbol signature).candidates other ↔
      id ∈ ops.candidates other ∨ other = symbol ∧ id = signature := by
  rw [candidates_add]
  split
  · rename_i hnew
    obtain ⟨rfl, -⟩ := hnew
    simp
  · rename_i hold
    refine ⟨.inl, ?_⟩
    rintro (h | ⟨rfl, rfl⟩)
    · exact h
    · exact not_not.mp fun hnew => hold ⟨rfl, hnew⟩

/-- The operators have the signatures that were registered, each once, and no others. -/
structure Holds (ops : Operators) (t : TypeTable) (regs : List (String × List TypeId × TypeId)) :
    Prop where
  nodup : ∀ symbol, (ops.candidates symbol).Nodup
  mem_iff : ∀ symbol id, id ∈ ops.candidates symbol ↔
    ∃ params result, (symbol, params, result) ∈ regs ∧ t.form? id = some (.function params result)
  interned : ∀ symbol params result, (symbol, params, result) ∈ regs →
    ∃ id, t.form? id = some (.function params result)

theorem holds_bare (number string truth : TypeId) (t : TypeTable) :
    (bare number string truth).Holds t [] where
  nodup _ := .nil
  mem_iff symbol id := by simp [bare, candidates]
  interned _ _ _ h := nomatch h

/-- Signatures stay in every later table. -/
theorem Holds.keeps (h : ops.Holds t regs) (hkeeps : t.Keeps t') (ht' : t'.Canonical) :
    ops.Holds t' regs where
  nodup := h.nodup
  mem_iff symbol id := by
    rw [h.mem_iff]
    constructor
    · rintro ⟨params, result, hreg, hform⟩
      exact ⟨params, result, hreg, hkeeps.form? id _ hform rfl⟩
    · rintro ⟨params, result, hreg, hform⟩
      obtain ⟨id', hform'⟩ := h.interned symbol params result hreg
      obtain rfl := ht'.unique id id' _ hform (hkeeps.form? id' _ hform' rfl) rfl
      exact ⟨params, result, hreg, hform'⟩
  interned symbol params result hreg := by
    obtain ⟨id, hform⟩ := h.interned symbol params result hreg
    exact ⟨id, hkeeps.form? id _ hform rfl⟩

theorem Holds.add (h : ops.Holds t regs) (ht : t.Canonical) {signature : TypeId}
    (hform : t.form? signature = some (.function params result)) :
    (ops.add symbol signature).Holds t (regs ++ [(symbol, params, result)]) where
  nodup other := by
    rw [candidates_add]
    split
    · rename_i hnew
      exact List.nodup_append.mpr ⟨h.nodup symbol, List.nodup_singleton _, by
        rintro a ha b hb rfl
        exact hnew.2 (List.mem_singleton.mp hb ▸ ha)⟩
    · exact h.nodup other
  mem_iff other id := by
    rw [mem_candidates_add, h.mem_iff]
    constructor
    · rintro (⟨params', result', hreg, hid⟩ | ⟨rfl, rfl⟩)
      · exact ⟨params', result', List.mem_append_left _ hreg, hid⟩
      · exact ⟨params, result, List.mem_append_right _ (List.mem_singleton.mpr rfl), hform⟩
    · rintro ⟨params', result', hreg, hid⟩
      obtain hreg | hreg := List.mem_append.mp hreg
      · exact .inl ⟨params', result', hreg, hid⟩
      · cases List.mem_singleton.mp hreg
        exact .inr ⟨rfl, ht.unique id signature _ hid hform rfl⟩
  interned other params' result' hreg := by
    obtain hreg | hreg := List.mem_append.mp hreg
    · exact h.interned other params' result' hreg
    · cases List.mem_singleton.mp hreg
      exact ⟨signature, hform⟩

/-- Registration goes through the list and has, at each point, what was registered so far. -/
theorem Holds.registerAll {before : List (String × List TypeId × TypeId)} (h : ops.Holds t before)
    (ht : t.Canonical) (hok : (ops.registerAll regs : TableM ε Operators) t = .ok ops' t') :
    ops'.Holds t' (before ++ regs) := by
  induction regs generalizing ops t before with
  | nil =>
    obtain ⟨rfl, rfl⟩ := pure_eq_ok.mp hok
    simpa using h
  | cons reg regs ih =>
    obtain ⟨symbol, params, result⟩ := reg
    obtain ⟨ops₁, t₁, hregister, hok⟩ := bind_eq_ok.mp hok
    obtain ⟨signature, t₂, hintern, hregister⟩ := bind_eq_ok.mp hregister
    obtain ⟨rfl, rfl⟩ := pure_eq_ok.mp hregister
    have hextends : t.Extends t₂ := (internFunction_moves _ _).ok hintern
    have ht₂ := ht.extends hextends
    have hadd : (ops.add symbol signature).Holds t₂ (before ++ [(symbol, params, result)]) :=
      (h.keeps hextends.keeps ht₂).add ht₂ (form?_of_internFunction hintern)
    simpa using ih hadd ht₂ hok

/-! ## Counting results -/

/-- The results that were registered for the symbol and exactly these parameters, each once. -/
def resultsFor (regs : List (String × List TypeId × TypeId)) (symbol : String)
    (args : List TypeId) : List TypeId :=
  ((regs.filter fun reg => reg.1 = symbol ∧ reg.2.1 = args).map (·.2.2)).dedup

theorem mem_resultsFor : result ∈ resultsFor regs symbol args ↔ (symbol, args, result) ∈ regs := by
  unfold resultsFor
  rw [List.mem_dedup, List.mem_map]
  constructor
  · rintro ⟨⟨symbol', params, result'⟩, hreg, rfl⟩
    simp only [List.mem_filter, decide_eq_true_eq] at hreg
    obtain ⟨hreg, rfl, rfl⟩ := hreg
    exact hreg
  · intro hreg
    exact ⟨(symbol, args, result), List.mem_filter.mpr ⟨hreg, by simp⟩, rfl⟩

/-- What the choice comes to, given the results to choose from and the texts of the arguments. -/
def answer (symbol : String) (results : List TypeId) (text : Except Fault String) :
    Except (Failure OverloadError) TypeId :=
  match results with
  | [result] => .ok result
  | results =>
    match text with
    | .error cause => .error (.fault cause)
    | .ok text =>
      if results.isEmpty then .error (.error (.noMatch symbol text))
      else .error (.error (.ambiguous symbol text results.length))

/-- Among the signatures that take the arguments there is one for each result. -/
theorem Holds.perm_resultsFor (h : ops.Holds t regs) (ht : t.Canonical) {found : List TypeId}
    (hfound : t.matching args (ops.candidates symbol) = .ok found) :
    (found.map t.resultAt).Perm (resultsFor regs symbol args) := by
  have htakes : ∀ id ∈ found, (symbol, args, t.resultAt id) ∈ regs ∧
      t.form? id = some (.function args (t.resultAt id)) := by
    intro id hid
    obtain ⟨hmem, result, hform⟩ := (matching_eq_ok hfound id).mp hid
    obtain ⟨params', result', hreg, hform'⟩ := (h.mem_iff symbol id).mp hmem
    cases hform.symm.trans hform'
    rw [resultAt_of_form? hform]
    exact ⟨hreg, hform⟩
  have hnodup : (found.map t.resultAt).Nodup := by
    refine ((h.nodup symbol).sublist (matching_sublist hfound)).map_on fun a ha b hb heq => ?_
    have hform := (htakes a ha).2
    rw [heq] at hform
    exact ht.unique a b _ hform (htakes b hb).2 rfl
  refine (List.perm_ext_iff_of_nodup hnodup (List.nodup_dedup _)).mpr fun result => ?_
  change _ ↔ result ∈ resultsFor regs symbol args
  rw [mem_resultsFor, List.mem_map]
  constructor
  · rintro ⟨id, hid, rfl⟩
    exact (htakes id hid).1
  · intro hreg
    obtain ⟨id, hform⟩ := h.interned symbol args result hreg
    refine ⟨id, (matching_eq_ok hfound id).mpr ⟨?_, result, hform⟩, resultAt_of_form? hform⟩
    exact (h.mem_iff symbol id).mpr ⟨args, result, hreg, hform⟩

/-- **The choice among overloads counts the results that were registered.** -/
theorem Holds.apply_eq_answer (h : ops.Holds t regs) (ht : t.Canonical) (symbol : String)
    (args : List TypeId) :
    ops.apply t symbol args = answer symbol (resultsFor regs symbol args) (t.listText args) := by
  have hissued : ∀ id ∈ ops.candidates symbol, id.index < t.size := fun id hid => by
    obtain ⟨params, result, -, hform⟩ := (h.mem_iff symbol id).mp hid
    exact form?_eq_some_lt hform
  obtain ⟨found, hfound⟩ := exists_matching args hissued
  have hperm := h.perm_resultsFor ht hfound
  unfold apply select selectExact
  rw [hfound]
  rcases found with _ | ⟨id, _ | ⟨other, rest⟩⟩
  · rw [List.nil_perm.mp hperm]
    cases t.listText args <;> rfl
  · obtain ⟨-, result, hform⟩ := (matching_eq_ok hfound id).mp (List.mem_singleton.mpr rfl)
    have hresult : t.resultOf id = .ok result := by
      unfold resultOf
      rw [form_eq_ok.mpr hform]
      rfl
    rw [List.map_singleton, resultAt_of_form? hform] at hperm
    rw [← List.singleton_perm.mp hperm]
    change (t.resultOf id).mapError Failure.fault = _
    rw [hresult]
    rfl
  · have hlength := hperm.length_eq
    rcases hresults : resultsFor regs symbol args with _ | ⟨first, _ | ⟨second, others⟩⟩
    · simp [hresults] at hlength
    · simp [hresults] at hlength
    · simp only [hresults, List.length_map, List.length_cons] at hlength
      cases t.listText args with
      | error cause => rfl
      | ok text =>
        change Except.error (Failure.error (OverloadError.ambiguous symbol text _)) =
          Except.error (Failure.error (OverloadError.ambiguous symbol text _))
        simp [hlength]

/-! ## What the answer depends on -/

theorem answer_eq_ok_iff {results : List TypeId} {text : Except Fault String} :
    answer symbol results text = .ok result ↔ results = [result] := by
  unfold answer
  split
  · simp
  · rename_i hother
    refine ⟨fun h => ?_, fun h => absurd h (hother result)⟩
    split at h
    · cases h
    · split at h <;> cases h

/-- The order of the results does not matter. -/
theorem answer_perm {results results' : List TypeId} (h : results.Perm results')
    (symbol : String) (text : Except Fault String) :
    answer symbol results text = answer symbol results' text := by
  rcases results with _ | ⟨result, _ | ⟨other, rest⟩⟩
  · rw [List.nil_perm.mp h]
  · rw [List.singleton_perm.mp h]
  · have hlength := h.length_eq
    rcases results' with _ | ⟨result', _ | ⟨other', rest'⟩⟩
    · simp at hlength
    · simp at hlength
    · cases text with
      | error cause => rfl
      | ok text =>
        change Except.error (Failure.error (OverloadError.ambiguous symbol text _)) =
          Except.error (Failure.error (OverloadError.ambiguous symbol text _))
        rw [hlength]

theorem resultsFor_perm
    (h : ∀ result, (symbol, args, result) ∈ regs ↔ (symbol, args, result) ∈ regs') :
    (resultsFor regs symbol args).Perm (resultsFor regs' symbol args) :=
  (List.perm_ext_iff_of_nodup (List.nodup_dedup _) (List.nodup_dedup _)).mpr fun result =>
    mem_resultsFor.trans ((h result).trans mem_resultsFor.symm)

theorem resultsFor_eq_singleton_iff : resultsFor regs symbol args = [result] ↔
    (symbol, args, result) ∈ regs ∧ ∀ other, (symbol, args, other) ∈ regs → other = result := by
  simp only [← mem_resultsFor]
  constructor
  · intro h
    simp [h]
  · rintro ⟨hmem, honly⟩
    refine (List.singleton_perm.mp ?_).symm
    refine (List.perm_ext_iff_of_nodup (List.nodup_singleton _) (List.nodup_dedup _)).mpr ?_
    intro other
    rw [List.mem_singleton]
    exact ⟨fun heq => heq ▸ hmem, honly other⟩

/-- What a symbol comes to with the arguments: the only result that was registered for it and
exactly these parameters. If there is none or more than one, the choice is refused, and the texts
of the arguments are listed; where an argument has no text, the refusal ends in a fault. -/
structure ChoosesFrom (regs : List (String × List TypeId × TypeId)) (ops : Operators)
    (t : TypeTable) (symbol : String) (args : List TypeId) : Prop where
  ok_iff : ∀ result, ops.apply t symbol args = .ok result ↔
    (symbol, args, result) ∈ regs ∧ ∀ other, (symbol, args, other) ∈ regs → other = result
  noMatch : (∀ result, (symbol, args, result) ∉ regs) → ∀ text, t.listText args = .ok text →
    ops.apply t symbol args = .error (.error (.noMatch symbol text))
  ambiguous : ∀ result other, (symbol, args, result) ∈ regs → (symbol, args, other) ∈ regs →
    result ≠ other → ∀ text, t.listText args = .ok text → ops.apply t symbol args =
      .error (.error (.ambiguous symbol text (resultsFor regs symbol args).length))
  fault : (∀ result, ops.apply t symbol args ≠ .ok result) → ∀ cause,
    t.listText args = .error cause → ops.apply t symbol args = .error (.fault cause)

theorem choosesFrom_of_answer (happly : ops.apply t symbol args =
      answer symbol (resultsFor regs symbol args) (t.listText args)) :
    ChoosesFrom regs ops t symbol args := by
  constructor
  · intro result
    rw [happly, answer_eq_ok_iff, resultsFor_eq_singleton_iff]
  · intro hnone text htext
    have hresults : resultsFor regs symbol args = [] :=
      List.eq_nil_iff_forall_not_mem.mpr fun result hmem => hnone result (mem_resultsFor.mp hmem)
    rw [happly, hresults, htext]
    rfl
  · intro result other hresult hother hne text htext
    rw [happly, htext]
    rcases hresults : resultsFor regs symbol args with _ | ⟨first, _ | ⟨second, rest⟩⟩
    · exact absurd (mem_resultsFor.mpr hresult) (by simp [hresults])
    · have hfirst := mem_resultsFor.mpr hresult
      have hsecond := mem_resultsFor.mpr hother
      rw [hresults, List.mem_singleton] at hfirst hsecond
      exact absurd (hfirst.trans hsecond.symm) hne
    · rfl
  · intro hrefused cause htext
    rw [happly] at hrefused ⊢
    rw [htext] at hrefused ⊢
    rcases hresults : resultsFor regs symbol args with _ | ⟨first, _ | ⟨second, rest⟩⟩
    · rfl
    · exact absurd (by rw [hresults]; rfl) (hrefused first)
    · rfl

/-- Registered operators, however the table has grown since: what the choice comes to, and what the
arguments are called. -/
theorem answer_of_registerAll (ht : t.Canonical) {number string truth : TypeId} {t₁ : TypeTable}
    (hok : ((bare number string truth).registerAll regs : TableM ε Operators) t = .ok ops t₁)
    (later : List Op) (symbol : String) (args : List TypeId) :
    ops.apply (later.foldl Op.apply t₁) symbol args =
        answer symbol (resultsFor regs symbol args) ((later.foldl Op.apply t₁).listText args) ∧
      ((∀ arg ∈ args, arg.index < t.size) →
        (later.foldl Op.apply t₁).listText args = t.listText args) := by
  have hextends : t.Extends t₁ := (registerAll_moves _ _).ok hok
  have ht₁ : t₁.Canonical := ht.extends hextends
  have ht₂ : (later.foldl Op.apply t₁).Canonical := ht₁.foldl later
  have hkeeps := keeps_foldl_apply t₁ later
  have hholds := ((holds_bare number string truth t).registerAll ht hok).keeps hkeeps ht₂
  exact ⟨hholds.apply_eq_answer ht₂ symbol args,
    (hextends.keeps.trans hkeeps).listText_eq ht ht₂⟩

/-- **The choice among overloads is exact, and the order of registrations does not matter.** Take
any registrations over issued types. They can be made, and however the table grows afterwards, a
symbol with arguments comes to the only result that was registered for it and exactly these
parameters; it is refused if there is none, or if there are several different ones, whose number is
reported. The arguments have texts to report if they were issued and no slice lacks its element. Any
registrations with the same results for this symbol and these parameters, in any order and together
with any others, come to the same; a refusal lists the arguments by the texts they have in the table
at hand, and these are the same for types that were there before the registrations. -/
theorem apply_of_registrations (ht : t.Reachable) (number string truth : TypeId)
    (hissued : ∀ reg ∈ regs, (∀ id ∈ reg.2.1, id.index < t.size) ∧ reg.2.2.index < t.size) :
    ∃ ops t₁, ((bare number string truth).registerAll regs : TableM Empty Operators) t =
        .ok ops t₁ ∧
      ∀ (later : List Op) (t₂ : TypeTable), later.foldl Op.apply t₁ = t₂ →
      ∀ (symbol : String) (args : List TypeId),
        ChoosesFrom regs ops t₂ symbol args ∧
        ((∀ arg ∈ args, arg.index < t₂.size) →
          (∀ id, t₂.form? id ≠ some (.generic Form.sliceName [])) →
          ∃ text, t₂.listText args = .ok text) ∧
        ∀ (regs' : List (String × List TypeId × TypeId)) (number' string' truth' : TypeId)
          (ops' : Operators) (t₁' : TypeTable) (later' : List Op) (t₂' : TypeTable),
          ((bare number' string' truth').registerAll regs' : TableM Empty Operators) t =
            .ok ops' t₁' → later'.foldl Op.apply t₁' = t₂' →
          (∀ result, (symbol, args, result) ∈ regs' ↔ (symbol, args, result) ∈ regs) →
          ChoosesFrom regs ops' t₂' symbol args ∧
          ((∀ arg ∈ args, arg.index < t.size) →
            ops'.apply t₂' symbol args = ops.apply t₂ symbol args) := by
  obtain ⟨ops, t₁, hok⟩ | ⟨cause, -⟩ := (registerAll_safe (ε := Empty)
    (bare number string truth) hissued).ends
  swap
  · exact cause.elim
  refine ⟨ops, t₁, hok, ?_⟩
  rintro later t₂ rfl symbol args
  obtain ⟨hanswer, htext⟩ := answer_of_registerAll ht.canonical hok later symbol args
  refine ⟨choosesFrom_of_answer hanswer, fun hargs hslices => ?_, ?_⟩
  · have ht₁ : t₁.Canonical := ht.canonical.extends ((registerAll_moves _ _).ok hok)
    obtain ⟨texts, htexts⟩ := except_mapM_ok fun arg harg =>
      (ht₁.foldl later).exists_text hslices (hargs arg harg)
    exact ⟨_, except_bind_eq_ok.mpr ⟨texts, htexts, rfl⟩⟩
  · rintro regs' number' string' truth' ops' t₁' later' t₂' hok' rfl hsame
    obtain ⟨hanswer', htext'⟩ := answer_of_registerAll ht.canonical hok' later' symbol args
    rw [answer_perm (resultsFor_perm hsame)] at hanswer'
    refine ⟨choosesFrom_of_answer hanswer', fun hargs => ?_⟩
    rw [hanswer, hanswer', htext hargs, htext' hargs]

/-- Numbers and strings. -/
def wordTable : TypeTable := [.primitive "f64", .primitive "string"].foldl Op.apply (new .empty)

/-- Addition of numbers twice, and of strings with two different results. -/
def mixedRegistrations : List (String × List TypeId × TypeId) :=
  [("+", [⟨2⟩, ⟨2⟩], ⟨2⟩), ("+", [⟨3⟩, ⟨3⟩], ⟨3⟩), ("-", [⟨2⟩], ⟨2⟩), ("+", [⟨2⟩, ⟨2⟩], ⟨2⟩),
    ("+", [⟨3⟩, ⟨3⟩], ⟨2⟩)]

/-- What was registered twice is no ambiguity, and two results are one, whatever the order. -/
theorem apply_of_registrations_mixed :
    wordTable.Reachable ∧
      (∀ reg ∈ mixedRegistrations,
        (∀ id ∈ reg.2.1, id.index < wordTable.size) ∧ reg.2.2.index < wordTable.size) ∧
      ∃ ops t₁ ops' t₁', ((bare ⟨2⟩ ⟨3⟩ ⟨2⟩).registerAll mixedRegistrations :
          TableM Empty Operators) wordTable = .ok ops t₁ ∧
        ((bare ⟨2⟩ ⟨3⟩ ⟨2⟩).registerAll mixedRegistrations.reverse :
          TableM Empty Operators) wordTable = .ok ops' t₁' ∧
        ops.apply t₁ "+" [⟨2⟩, ⟨2⟩] = .ok ⟨2⟩ ∧
        ops.apply t₁ "-" [⟨3⟩] = .error (.error (.noMatch "-" "string")) ∧
        ops.apply t₁ "+" [⟨3⟩, ⟨3⟩] = .error (.error (.ambiguous "+" "string, string" 2)) ∧
        ops'.apply t₁' "+" [⟨3⟩, ⟨3⟩] = ops.apply t₁ "+" [⟨3⟩, ⟨3⟩] := by
  have hreachable : wordTable.Reachable := (Reachable.new _).foldl _
  have hissued : ∀ reg ∈ mixedRegistrations,
      (∀ id ∈ reg.2.1, id.index < wordTable.size) ∧ reg.2.2.index < wordTable.size := by decide
  obtain ⟨ops, t₁, hok, hchoice⟩ :=
    apply_of_registrations hreachable ⟨2⟩ ⟨3⟩ ⟨2⟩ hissued
  cases hok
  have happly := fun symbol args => hchoice [] _ rfl symbol args
  refine ⟨hreachable, hissued, _, _, _, _, rfl, rfl, ?_, ?_, ?_, ?_⟩
  · exact ((happly "+" [⟨2⟩, ⟨2⟩]).1.ok_iff ⟨2⟩).mpr (by simp [mixedRegistrations])
  · exact (happly "-" [⟨3⟩]).1.noMatch (by simp [mixedRegistrations]) "string" (by decide +kernel)
  · exact (happly "+" [⟨3⟩, ⟨3⟩]).1.ambiguous ⟨2⟩ ⟨3⟩ (by decide) (by decide) (by decide)
      "string, string" (by decide +kernel)
  · exact ((happly "+" [⟨3⟩, ⟨3⟩]).2.2 mixedRegistrations.reverse _ _ _ _ _ [] _ rfl rfl
      fun result => List.mem_reverse).2 (by decide)

/-- Numbers, and slices of nothing. -/
def bareSlices : TypeTable :=
  [.primitive "f64", .generic Form.sliceName []].foldl Op.apply (new ⟨[(Form.sliceName, 0)]⟩)

/-- Addition of numbers. -/
def numberAddition : List (String × List TypeId × TypeId) := [("+", [⟨2⟩, ⟨2⟩], ⟨2⟩)]

/-- Nothing is registered for slices of nothing, but they have no text that a refusal could list. -/
theorem bareSlices_apply :
    bareSlices.Reachable ∧ (⟨3⟩ : TypeId).index < bareSlices.size ∧
      (∀ result, ("+", [⟨3⟩, ⟨3⟩], result) ∉ numberAddition) ∧
      ∃ ops t₁, ((bare ⟨2⟩ ⟨2⟩ ⟨2⟩).registerAll numberAddition : TableM Empty Operators)
          bareSlices = .ok ops t₁ ∧
        ops.apply t₁ "+" [⟨3⟩, ⟨3⟩] = .error (.fault .outOfRange) := by
  have hreachable : bareSlices.Reachable := (Reachable.new _).foldl _
  exact ⟨hreachable, by decide, by simp [numberAddition], _, _, rfl, by decide +kernel⟩

end Operators

end RuleTypes
