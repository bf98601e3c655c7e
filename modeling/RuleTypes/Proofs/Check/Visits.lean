import RuleTypes.Proofs.Check.Proper

/-!
# When nodes are looked at

Whatever a rule does, it goes on from the state it started in (`Later`). So it upholds every
property that goes on holding from there (`Persists.sustains`), and calls the inference of the parts
only where the property holds. Hence all nodes of an item are looked at in states that go on from
the one in which the check came to the item (`Visits.later`).
-/

namespace RuleTypes.Check

variable {cx : Setting} {s s₁ : State} {I : State → Prop}

/-! ## Rules -/

/-- The property goes on holding. -/
def Persists (I : State → Prop) : Prop := ∀ s s', Later (fun _ => True) s s' → I s → I s'

theorem Persists.upholds {α : Type} (hI : Persists I) {x : Check α}
    (hx : Moves (Later fun _ => True) x) : Upholds I (fun _ => True) x :=
  fun s hs => ⟨rfl, hI s _ (hx s) hs, fun _ _ _ => trivial⟩

theorem Persists.upholds_of_extended {α : Type} (hI : Persists I) {x : Check α}
    (hx : Moves Extended x) : Upholds I (fun _ => True) x :=
  hI.upholds (hx.mono fun _ _ ⟨_, hextends, heq⟩ => heq ▸ .of_table hextends)

/-- Whatever a rule does, a property that goes on holding holds on the way. -/
theorem Persists.sustains (hI : Persists I) : Sustains cx I fun _ => True where
  noValue := trivial
  number := trivial
  string := trivial
  openFrame kind := hI.upholds (openFrame_later kind)
  closeFrame := hI.upholds closeFrame_later
  annotate _ type := hI.upholds (annotate_later trivial type)
  annotateProvisional _ := hI.upholds (annotateProvisional_later trivial)
  resolve _ _ := hI.upholds_of_extended (resolve_extended _ _)
  bindName _ _ _ _ _ := hI.upholds (bindName_later _ _ _ _)
  resultOf _ := .reads (resultOf_moves _)
  element _ := .of_reads (formOf_moves _) fun _ _ _ _ _ _ => trivial
  identifier _ _ := .reads (inferIdentifier_moves _ _)
  applyValue _ _ _ _ := .reads (applyValue_moves _ _ _ _)
  member _ _ _ _ := hI.upholds (inferMember_goes (.pure _) _ _).moves
  unary _ _ _ _ := hI.upholds (inferUnary_goes (.pure _) _ _).moves
  typed _ _ _ _ := hI.upholds_of_extended (inferTyped_extended _ _ _ _)
  record _ _ _ _ := hI.upholds_of_extended (.bind (recordFields_moves _ _ _) fun _ =>
    onTable_extended (TypeTable.internRecord_moves _))

theorem inferAt_forward (depth : Nat) (id : NodeId) :
    Moves (Later fun _ => True) (inferAt cx depth id) :=
  inferAt_later (fun _ _ _ _ => trivial) depth id trivial

/-! ## Items -/

theorem Entry.later {item : Item} {body : NodeId} {entry : Check Unit}
    (h : Entry item s body entry) : Moves (Later fun _ => True) entry := by
  cases h with
  | intro => exact .bind (openFrame_later _) fun _ => bindParams_later _ _ _

/-- **A node is looked at after the check has come to its item.** -/
theorem Visits.later {item : Item} {depth : Nat} {id : NodeId}
    (h : Visits cx item s depth id s₁) : Later (fun _ => True) s s₁ := by
  induction h with
  | whole => exact .refl _ s
  | body h hentry => exact h.later.ok hentry
  | part _ _ hchild ih =>
    have hI : Persists (Later (fun _ => True) s) := fun _ _ hlater hs => hs.trans hlater
    exact hI.sustains.of_consults hchild ih

/-- Looking at items, whatever comes of it, extends the table and registers nothing. -/
theorem members_of_checkItems {p p' : Progress} {items : List Item}
    (h : p.checkItems cx items = .ok p') : p'.state.members = p.state.members := by
  refine checkItems_invariant (P := fun _ q => q.state.members = p.state.members)
    (fun seen item rest q q' _ hq hstep => ?_) rfl h
  rw [← hq]
  cases hstep with
  | skip => rfl
  | done _ h => exact ((checkItem_forward item).ok h).members
  | found _ h =>
    obtain ⟨_, _, herror, -, rfl⟩ := attempt_eq_error h
    exact ((checkItem_forward item).error herror).members

end RuleTypes.Check
