import RuleTypes.Check.Basic

/-!
# Layouts of declared structs

A struct that holds itself by value has no finite layout, and a struct that mentions one that
failed cannot be used either. Both questions are searches along the components of forms: a struct
holds its fields by value, and everything else holds what it mentions behind a reference.
-/

namespace RuleTypes.TypeTable

/-- How many ids `next` lists in the forms of the types that were not visited. -/
def linksLeft (t : TypeTable) (next : Form → List TypeId) (visited : List TypeId) : Nat :=
  (((List.range t.size).filter fun i => !visited.contains ⟨i⟩).flatMap fun i =>
    ((t.form? ⟨i⟩).map next).getD []).length

theorem length_flatMap_filter_ne {l : List Nat} (hl : l.Nodup) {a : Nat} (ha : a ∈ l)
    (f : Nat → List TypeId) :
    (f a).length + ((l.filter (· != a)).flatMap f).length = (l.flatMap f).length := by
  induction l with
  | nil => cases ha
  | cons b l ih =>
    obtain ⟨hb, hl⟩ := List.nodup_cons.mp hl
    by_cases heq : b = a
    · subst heq
      have hrest : l.filter (· != b) = l := List.filter_eq_self.mpr fun c hc => by
        simpa using fun heq : c = b => hb (heq ▸ hc)
      simp [hrest]
    · have hrest := ih hl ((List.mem_cons.mp ha).resolve_left fun h => heq h.symm)
      simp only [List.filter_cons, bne_iff_ne, ne_eq, heq, not_false_eq_true, if_true,
        List.flatMap_cons, List.length_append]
      omega

/-- Every type is visited once, and then what its form lists is no longer left. -/
theorem linksLeft_cons (t : TypeTable) (next : Form → List TypeId) {visited : List TypeId}
    {id : TypeId} {form : Form} (hnew : ¬ visited.contains id = true)
    (hform : t.form? id = some form) :
    (next form).length + t.linksLeft next (id :: visited) = t.linksLeft next visited := by
  have hsplit : ((List.range t.size).filter fun i => !(id :: visited).contains ⟨i⟩) =
      ((List.range t.size).filter fun i => !visited.contains ⟨i⟩).filter (· != id.index) := by
    rw [List.filter_filter]
    refine List.filter_congr fun i _ => ?_
    have hsame : ((⟨i⟩ : TypeId) == id) = (i == id.index) := by
      rw [Bool.eq_iff_iff]
      cases id
      simp
    rw [List.contains_cons, Bool.not_or, hsame]
    rfl
  have hmem : id.index ∈ (List.range t.size).filter fun i => !visited.contains ⟨i⟩ := by
    refine List.mem_filter.mpr ⟨List.mem_range.mpr (Array.getElem?_eq_some_iff.mp hform).1, ?_⟩
    simpa using hnew
  have hleft := length_flatMap_filter_ne (List.nodup_range.filter _) hmem fun i =>
    ((t.form? ⟨i⟩).map next).getD []
  rw [linksLeft, linksLeft, hsplit, ← hleft, hform]
  rfl

/-- Follows references depth first from the ids on the stack, the last part of a form before the
first, until one of them gives an answer. -/
def search {β : Type} (t : TypeTable) (next : Form → List TypeId)
    (stop? : TypeId → Form → Option β) (visited : List TypeId) :
    List TypeId → Except Fault (Option β)
  | [] => .ok none
  | id :: stack =>
    if _hseen : visited.contains id = true then t.search next stop? visited stack
    else
      match _hform : t.form? id with
      | none => .error (.unissued id)
      | some form =>
        match stop? id form with
        | some answer => .ok (some answer)
        | none => t.search next stop? (id :: visited) ((next form).reverse ++ stack)
termination_by stack => stack.length + t.linksLeft next visited
decreasing_by
  · simp
  · have hleft := t.linksLeft_cons next _hseen _hform
    simp only [List.length_append, List.length_reverse, List.length_cons]
    omega

/-- What a form holds by value. -/
def heldByValue (form : Form) : List TypeId := (form.fields?.getD []).map (·.2)

/-- Whether a struct is found among what its fields hold by value. -/
def containsItself (t : TypeTable) (target : TypeId) : Except Fault Bool := do
  let form ← t.form target
  let found ← t.search heldByValue (fun id _ => if id = target then some () else none) []
    (heldByValue form).reverse
  return found.isSome

/-- The name of a declared struct that has no layout: it is pending, or its name means another
type or none. -/
def brokenName? (t : TypeTable) (names : Names) (id : TypeId) : Form → Option String
  | .declared name _ =>
    if t.isSealed id ∧ names.get? name = some id then none else some name
  | _ => none

/-- The name of the first struct without a layout that a type mentions. -/
def firstBroken? (t : TypeTable) (names : Names) (root : TypeId) :
    Except Fault (Option String) :=
  t.search Form.components (t.brokenName? names) [] [root]

end RuleTypes.TypeTable
