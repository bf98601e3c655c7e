import RuleTypes.Proofs.Check.Known
import RuleTypes.Proofs.Check.Scopes
import RuleTypes.Proofs.Check.Symbols

/-!
# Global names that an item leaves behind

An item at top level that ends in a finding loses its types and its frames, but not the global names
it has bound. Which ones these are can be told from the types at the moment of the finding: exactly
the variables outside blocks and loops that had got their type (`Finished`, `globals_of_finding`).
So the global names are those from before the item if and only if no variable was finished.
-/

namespace RuleTypes.Check

open Relation

variable {α : Type} {cx : Setting} {infer : Infer} {root : NodeId} {g : NameMap Binding}
  {s s' : State} {N : NodeId → Prop}

/-! ## Finished variables -/

/-- The variable stands below the root outside blocks and loops and has got its type, which is that
of the binding. -/
structure Finished (cx : Setting) (root : NodeId) (a : Annotations) (v : NodeId) (name : String)
    (binding : Binding) : Prop where
  exposed : cx.arena.Exposed root v
  declared : cx.arena.DeclaredAt v name binding
  typed : a.get? v = some binding.type
  final : binding.type ≠ .auto

/-- The global names are those from before, `g`, and the finished variables. A binding to `auto`
is not excluded yet. -/
structure Tracks (cx : Setting) (root : NodeId) (g : NameMap Binding) (s : State) : Prop where
  kept : ∀ name binding, g.get? name = some binding → s.scope.globals.get? name = some binding
  new : ∀ name binding, s.scope.globals.get? name = some binding → g.get? name = some binding ∨
    binding.type = .auto ∨ ∃ v, Finished cx root s.annotations v name binding
  bound : ∀ v name binding, Finished cx root s.annotations v name binding →
    g.get? name = none ∧ s.scope.globals.get? name = some binding

theorem Tracks.of_same (h : Tracks cx root g s)
    (hglobals : ∀ name, s'.scope.globals.get? name = s.scope.globals.get? name)
    (hfinished : ∀ v name binding, Finished cx root s'.annotations v name binding ↔
      Finished cx root s.annotations v name binding) : Tracks cx root g s' where
  kept name binding hg := (hglobals name).trans (h.kept name binding hg)
  new name binding hs' := by
    simp only [hfinished]
    exact h.new name binding ((hglobals name).symm.trans hs')
  bound v name binding hv := by
    rw [hglobals]
    exact h.bound v name binding ((hfinished v name binding).mp hv)

theorem finished_congr {a a' : Annotations} {v : NodeId} {name : String} {binding : Binding}
    (h : cx.arena.Exposed root v → cx.arena.DeclaredAt v name binding → a'.get? v = a.get? v) :
    Finished cx root a' v name binding ↔ Finished cx root a v name binding :=
  ⟨fun ⟨hv, hd, ht, hf⟩ => ⟨hv, hd, (h hv hd).symm.trans ht, hf⟩,
    fun ⟨hv, hd, ht, hf⟩ => ⟨hv, hd, (h hv hd).trans ht, hf⟩⟩

/-! ## Steps -/

/-- At top level, the global names stay accounted for. -/
def Tracked (cx : Setting) (root : NodeId) (g : NameMap Binding) (s s' : State) : Prop :=
  s.scope.frames = [] → Tracks cx root g s → s'.scope.frames = [] ∧ Tracks cx root g s'

/-- After a finding, frames may be left open. A fault ends the check, so nothing is asked of it. -/
def Stopped (cx : Setting) (root : NodeId) (g : NameMap Binding) (e : Failure Finding)
    (s s' : State) : Prop :=
  s.scope.frames = [] → Tracks cx root g s → ∀ finding, e = .error finding → Tracks cx root g s'

instance : Extensible (Tracked cx root g) (Stopped cx root g) where
  refl _ hframes h := ⟨hframes, h⟩
  trans _ _ _ h h' hframes hs :=
    have ⟨hframes₁, hs₁⟩ := h hframes hs
    h' hframes₁ hs₁
  fails _ _ _ h _ _ := h
  after h h' hframes hs :=
    have ⟨hframes₁, hs₁⟩ := h hframes hs
    h' hframes₁ hs₁
  table _ _ _ hframes h := ⟨hframes, h.of_same (fun _ => rfl) fun _ _ _ => .rfl⟩

/-- A type given to a node that is no variable. -/
theorem annotate_tracked {id : NodeId} {node : Node} (hnode : cx.arena.node? id = some node)
    (hkind : ∀ name type start, node.kind ≠ .var name type start) (type : TypeId) :
    Goes (Tracked cx root g) (Stopped cx root g) (annotate id type) :=
  .of_moves (update_moves fun s s' h hframes hs => by
    obtain ⟨annotations, hset, rfl⟩ := annotate_eq_ok.mp (update_eq_ok (u := ()).mpr h)
    refine ⟨hframes, hs.of_same (fun _ => rfl) fun v name binding => finished_congr fun _ hd => ?_⟩
    obtain ⟨node', type, start, hnode', hkind', -⟩ := hd
    rw [Annotations.get?_of_set hset, if_neg]
    rintro rfl
    obtain rfl := Option.some.inj (hnode'.symm.trans hnode)
    exact hkind name type start hkind')

/-- A mark on a variable finishes nothing. -/
theorem annotateProvisional_tracked (id : NodeId) :
    Goes (Tracked cx root g) (Stopped cx root g) (annotateProvisional id) :=
  .of_moves (update_moves fun s s' h hframes hs => by
    obtain ⟨annotations, hset, rfl⟩ :=
      annotateProvisional_eq_ok.mp (update_eq_ok (u := ()).mpr h)
    obtain ⟨-, hnone, -⟩ := Annotations.setProvisional_eq_ok.mp hset
    refine ⟨hframes, hs.of_same (fun _ => rfl) fun v name binding => ?_⟩
    by_cases hv : v = id
    · subst hv
      have hget := Annotations.get?_of_setProvisional hset v
      rw [if_pos rfl] at hget
      constructor
      · exact fun hv => absurd (Option.some.inj (hv.typed.symm.trans hget)) hv.final
      · exact fun hv => absurd (hv.typed.symm.trans hnone) (by simp)
    · refine finished_congr fun _ _ => ?_
      rw [Annotations.get?_of_setProvisional hset, if_neg hv])

/-- A variable that is bound and gets its type is finished. -/
theorem Tracks.finish {id : NodeId} {node : Node} {name : String} {written : TypeExpr}
    {start : NodeId} {type : TypeId} {annotations : Annotations} (hs : Tracks cx root g s)
    (hexposed : cx.arena.Exposed root id) (hnode : cx.arena.node? id = some node)
    (hkind : node.kind = .var name written start) (hnew : s.scope.globals.get? name = none)
    (hset : s.annotations.set id type = .ok annotations) :
    Tracks cx root g { s with
      scope := { s.scope with globals := s.scope.globals.insert name ⟨type, .var, node.span⟩ }
      annotations } := by
  have hdeclared : ∀ {other binding}, cx.arena.DeclaredAt id other binding →
      other = name ∧ binding.kind = .var ∧ binding.span = node.span := by
    rintro other binding ⟨node', written', start', hnode', hkind', hbinding⟩
    obtain rfl := Option.some.inj (hnode'.symm.trans hnode)
    cases hkind'.symm.trans hkind
    exact ⟨rfl, hbinding⟩
  have hbefore : ∀ {other binding}, s.scope.globals.get? other = some binding →
      other ≠ name ∧ (s.scope.globals.insert name ⟨type, .var, node.span⟩).get? other =
        some binding := by
    intro other binding hother
    have hne : other ≠ name := by
      rintro rfl
      cases hnew.symm.trans hother
    exact ⟨hne, by rw [NameMap.get?_insert, if_neg hne, hother]⟩
  have hget := Annotations.get?_of_set hset
  refine ⟨fun other binding hg => (hbefore (hs.kept other binding hg)).2, ?_, ?_⟩
  · intro other binding hother
    change (s.scope.globals.insert name _).get? other = some binding at hother
    rw [NameMap.get?_insert] at hother
    split at hother
    · obtain rfl := Option.some.inj hother
      by_cases hauto : type = .auto
      · exact .inr (.inl hauto)
      · subst other
        refine .inr (.inr ⟨id, hexposed, ⟨node, written, start, hnode, hkind, rfl, rfl⟩, ?_, hauto⟩)
        exact (hget id).trans (if_pos rfl)
    · rename_i hne
      refine (hs.new other binding hother).imp_right (.imp_right fun ⟨v, hv⟩ => ⟨v, ?_⟩)
      refine (finished_congr fun _ hd => ?_).mpr hv
      rw [hget, if_neg]
      rintro rfl
      exact hne (hdeclared hd).1
  · intro v other binding hv
    by_cases hid : v = id
    · subst hid
      obtain ⟨rfl, hvar, hspan⟩ := hdeclared hv.declared
      obtain ⟨found, kind, span⟩ := binding
      have htype := (hget v).trans (if_pos rfl)
      obtain rfl : type = found := Option.some.inj (htype.symm.trans hv.typed)
      subst hvar hspan
      refine ⟨?_, by simp⟩
      by_contra hg
      obtain ⟨old, hold⟩ := Option.ne_none_iff_exists'.mp hg
      exact (hbefore (hs.kept _ old hold)).1 rfl
    · obtain ⟨hg, hglobal⟩ := hs.bound v other binding
        ((finished_congr fun _ _ => ((hget v).trans (if_neg hid)).symm).mpr hv)
      exact ⟨hg, (hbefore hglobal).2⟩

/-- Binding a variable and giving it its type. -/
theorem bindName_annotate_tracked {id : NodeId} {node : Node} {name : String} {written : TypeExpr}
    {start : NodeId} (hexposed : cx.arena.Exposed root id) (hnode : cx.arena.node? id = some node)
    (hkind : node.kind = .var name written start) (type : TypeId) :
    Goes (Tracked cx root g) (Stopped cx root g) (do
      bindName name type .var node.span
      annotate id type
      return type) := by
  refine .of_ends (fun {s a s'} h hframes hs => ?_) fun {s e s'} h hframes hs finding he => ?_
  · obtain ⟨_, s₁, hbind, h⟩ := bind_eq_ok.mp h
    obtain ⟨_, s₂, hannotate, h⟩ := bind_eq_ok.mp h
    obtain ⟨-, rfl⟩ := pure_eq_ok.mp h
    obtain ⟨scope, hscope, rfl⟩ := bindName_eq_ok.mp hbind
    obtain ⟨annotations, hset, rfl⟩ := annotate_eq_ok.mp hannotate
    obtain ⟨hnew, rfl⟩ := Scope.bind_eq_ok.mp hscope
    rw [Scope.current_of_global hframes] at hnew
    rw [Scope.withBinding_of_global hframes]
    exact ⟨hframes, hs.finish hexposed hnode hkind hnew hset⟩
  · obtain h | ⟨_, s₁, hbind, h⟩ := bind_eq_error.mp h
    · exact bindName_eq_error h ▸ hs
    obtain h | ⟨_, s₂, -, h⟩ := bind_eq_error.mp h
    · obtain ⟨_, -, rfl, -⟩ := update_eq_error.mp h
      cases he
    · exact (pure_eq_error.mp h).elim

/-! ## Rules -/

/-- The node lies below one of the parts of another. -/
def PartOf (cx : Setting) (node : Node) (v : NodeId) : Prop :=
  ∃ child ∈ node.kind.children, cx.arena.Below child v

theorem closed_partOf (cx : Setting) (node : Node) : Closed cx (PartOf cx node) :=
  fun _ _ hchild ⟨part, hpart, hbelow⟩ => ⟨part, hpart, hbelow.tail hchild⟩

/-- What binds nothing globally and gives no type to a variable outside blocks and loops. -/
theorem enclosed_tracked {x : Check α}
    (hscope : Goes (Binds fun _ _ => False) (Abandons fun _ _ => False) x)
    (hlater : Moves (Later N) x) (hN : ∀ v, N v → ¬ cx.arena.Exposed root v) :
    Goes (Tracked cx root g) (Stopped cx root g) x := by
  have hfinished : ∀ {s s' : State}, Later N s s' → ∀ v name binding,
      Finished cx root s'.annotations v name binding ↔
        Finished cx root s.annotations v name binding := fun h v _ _ =>
    finished_congr fun hv _ => h.get?_eq fun hNv => hN v hNv hv
  refine .of_ends (fun h hframes hs => ?_) fun h hframes hs _ _ => ?_
  · have hgains : Scope.Gains _ _ _ := hscope.ok h
    exact ⟨hgains.frames_eq_nil hframes,
      hs.of_same hgains.get?_globals_eq (hfinished (hlater.ok h))⟩
  · obtain ⟨mid, opened, hgains, heq⟩ : Scope.Leaves _ _ _ := hscope.error h
    refine hs.of_same (fun name => ?_) (hfinished (hlater.error h))
    rw [heq]
    exact hgains.get?_globals_eq name

/-- **At top level, inference binds the variables it finishes.** -/
theorem inferAt_tracked (hforest : cx.arena.IsForest) (depth : Nat) :
    ∀ id, cx.arena.Exposed root id →
      Goes (Tracked cx root g) (Stopped cx root g) (inferAt cx depth id) := by
  induction depth with
  | zero => exact fun _ _ => .throw _
  | succ depth ih =>
    intro id hid
    refine .bind_of (.reads (nodeOf_moves _ _)) fun node s s' hread => ?_
    obtain ⟨hnode, -⟩ := nodeOf_eq_ok.mp hread
    have hpart : node.kind.opensFrame = false → ∀ child ∈ node.kind.children,
        cx.arena.Exposed root child :=
      fun hframe child hchild => hid.tail ⟨node, hnode, hframe, hchild⟩
    by_cases hvar : ∃ name written start, node.kind = .var name written start
    · obtain ⟨name, written, start, hkind⟩ := hvar
      unfold inferNode
      rw [hkind]
      refine inferVariable_bind_goes (annotateProvisional_tracked id)
        (ih start (hpart ?_ start ?_)) (bindName_annotate_tracked hid hnode hkind) written <;>
        simp [hkind, NodeKind.opensFrame, NodeKind.children]
    have hvar : ∀ name written start, node.kind ≠ .var name written start :=
      fun name written start hkind => hvar ⟨name, written, start, hkind⟩
    refine .bind ?_ fun type => .bind (annotate_tracked hnode hvar type) fun _ => .pure _
    -- the parts of a block or loop are out of sight, and so is what they bind
    have hinside : ∀ child, Goes (Binds fun _ _ => True) (Abandons fun _ _ => True)
        (inferAt cx depth child) := fun child =>
      binds_mono (fun _ _ _ => trivial) (inferAt_scope depth child)
    have hlater : ∀ child ∈ node.kind.children, Goes (Later (PartOf cx node))
        (fun _ => Later (PartOf cx node)) (inferAt cx depth child) := fun child hchild =>
      (inferAt_later (closed_partOf cx node) depth child ⟨child, hchild, .refl child⟩).goes
    have hhidden : node.kind.opensFrame = true →
        ∀ v, PartOf cx node v → ¬ cx.arena.Exposed root v := by
      rintro hframe v ⟨_, hchild, hbelow⟩
      exact hforest.not_exposed_of_frame hid hnode hframe hchild hbelow
    refine inferNode_goes (fun hframe child hchild => ih child (hpart hframe child hchild))
      ?_ ?_ ?_ ?_ fun name written start hkind => absurd hkind (hvar name written start)
    · intro callee calleeNode _ _ hcallee hkind type
      exact annotate_tracked hcallee (fun _ _ _ h => by rw [h] at hkind; cases hkind) type
    · intro callee calleeNode base field hcallee hframe hcalleeNode hmember
      refine ih base ((hpart hframe callee hcallee).tail ⟨calleeNode, hcalleeNode, ?_, ?_⟩) <;>
        simp [hmember, NodeKind.opensFrame, NodeKind.children]
    · intro statements hkind
      rw [hkind] at hlater hhidden
      exact enclosed_tracked (inferBlock_binds fun child _ => hinside child)
        (inferBlock_goes (openFrame_later _).goes closeFrame_later.goes hlater).moves (hhidden rfl)
    · intro start condition body hkind
      rw [hkind] at hlater hhidden
      refine enclosed_tracked
        (inferLoop_binds (fun child _ => hinside child) (hinside _) (hinside _))
        (inferLoop_goes (openFrame_later _).goes closeFrame_later.goes (fun child hchild => ?_)
          ?_ ?_).moves (hhidden rfl)
      · exact hlater child (List.mem_append_left _ hchild)
      · exact hlater condition (by simp [NodeKind.children])
      · exact hlater body (by simp [NodeKind.children])

/-! ## Items -/

theorem bindParams_binds (span : Span) (params : List (String × TypeExpr)) (types : List TypeId) :
    Goes (Binds fun _ _ => True) (Abandons fun _ _ => True) (bindParams span params types) := by
  induction params generalizing types with
  | nil => exact .pure _
  | cons param params ih =>
    cases types with
    | nil => exact .pure _
    | cons type types => exact .bind (bindName_binds trivial) fun _ => ih types

/-- A function binds nothing outside its own frame, also when its body fails. -/
theorem checkFunction_binds {W : String → Binding → Prop} (id : NodeId) (span : Span)
    (name : String) (kind : FunctionKind) (params : List (String × TypeExpr)) (body : NodeId) :
    Goes (Binds W) (Abandons W) (checkFunction cx id span name kind params body) := by
  refine .bind (.reads (inspect_moves _)) fun signature => .bind (.reads (formOf_moves _))
    fun form => ?_
  cases form.signature? with
  | none => exact .throw _
  | some types =>
    have hinside : Goes (Binds W) (Abandons W) (do
        openFrame (.function types.2)
        let _ ← (do
          bindParams span params types.1
          let found ← infer cx body
          let returns ← inspect fun _ =>
            if found = .noValue then cx.arena.returns body else .ok false
          require (found = types.2 ∨ (found = .noValue ∧ returns))
            (do return .resultMismatch (← textOf types.2) (← textOf found))
            (← nodeOf cx body).span)
        closeFrame
        return ()) :=
      enclosed_binds (fun _ => ()) <| .bind (bindParams_binds span params types.1) fun _ =>
        .bind (binds_mono (fun _ _ _ => trivial) (inferAt_scope _ body)) fun found =>
          .reads (.bind (inspect_moves _) fun _ => .bind (nodeOf_moves _ _) fun _ =>
            require_moves _ (.bind (textOf_moves _) fun _ => .bind (textOf_moves _) fun _ =>
              .pure _) _)
    have hlinked := hinside.bind fun _ => Goes.bind (Goes.reads (inspect_moves fun s =>
      s.table.fingerprint signature)) fun fingerprint => Goes.pure
        (⟨name, kind, signature, name ++ "@" ++ fingerprint.text, id⟩ : CheckedFunction)
    simpa only [bind_assoc, pure_bind] using hlinked

/-- What a function binds is gone when it has been checked. -/
theorem checkFunction_scope {id body : NodeId} {span : Span} {name : String} {kind : FunctionKind}
    {params : List (String × TypeExpr)} {f : CheckedFunction}
    (h : checkFunction cx id span name kind params body s = .ok f s') : s'.scope = s.scope := by
  obtain ⟨_, paramTypes, result, opened, s₁, found, s₂, closed, _, -, -, hpush, hparams, hbody, -,
    hpop, rfl, -⟩ := checkFunction_eq_ok h
  obtain ⟨-, rfl⟩ := Scope.push_eq_ok.mp hpush
  have hgains : Scope.Gains (fun _ _ => True) _ s₂.scope := Scope.Gains.trans
    ((bindParams_binds span params paramTypes).ok hparams)
    ((binds_mono (fun _ _ _ => trivial) (inferAt_scope _ body)).ok hbody)
  exact hgains.eq_of_pop hpop

theorem checkItem_frames {item : Item} {function? : Option CheckedFunction}
    (hframes : s.scope.frames = []) (h : checkItem cx item s = .ok function? s') :
    s'.scope.frames = [] := by
  have hinfer : ∀ {type}, Check.infer cx item.id s = .ok type s' → s'.scope.frames = [] :=
    fun h => Scope.Gains.frames_eq_nil ((inferAt_scope _ item.id).ok h) hframes
  unfold checkItem at h
  cases hkind : item.node.kind with
  | struct | foreign =>
    simp only [hkind, pure_eq_ok] at h
    exact h.2 ▸ hframes
  | function =>
    simp only [hkind, bind_eq_ok, pure_eq_ok] at h
    obtain ⟨f, s₁, hfunction, -, rfl⟩ := h
    exact checkFunction_scope hfunction ▸ hframes
  | var =>
    simp only [hkind, bind_eq_ok, pure_eq_ok] at h
    obtain ⟨type, s₁, h, -, rfl⟩ := h
    exact hinfer h
  | _ =>
    simp only [hkind, bind_eq_ok, pure_eq_ok, require_eq_ok] at h
    obtain ⟨_, _, ⟨-, rfl⟩, type, s₁, h, -, rfl⟩ := h
    exact hinfer h

theorem frames_of_itemStep {p p' : Progress} {item : Item} (hframes : p.state.scope.frames = [])
    (h : ItemStep cx item p p') : p'.state.scope.frames = [] := by
  cases h with
  | skip => exact hframes
  | done _ h => exact checkItem_frames hframes h
  | found _ h =>
    obtain ⟨_, _, -, -, rfl⟩ := attempt_eq_error h
    rfl

/-- Between items, no frame is open. -/
theorem frames_of_checkItems {p p' : Progress} {items : List Item}
    (hframes : p.state.scope.frames = []) (h : p.checkItems cx items = .ok p') :
    p'.state.scope.frames = [] :=
  checkItems_invariant (P := fun _ q => q.state.scope.frames = [])
    (fun _ _ _ _ _ _ => frames_of_itemStep) hframes h

/-- An item that is no definition is inferred as a whole. -/
theorem infer_of_checkItem {item : Item} (hitem : ¬ item.IsRegistered) {finding : Finding}
    (h : checkItem cx item s = .error (.error finding) s') :
    s' = s ∨ Check.infer cx item.id s = .error (.error finding) s' := by
  unfold checkItem at h
  unfold Item.IsRegistered Item.structDef? Item.functionDef? at hitem
  cases hkind : item.node.kind with
  | struct | foreign | function => simp [hkind] at hitem
  | var =>
    simp only [hkind, bind_eq_error, pure_eq_error, and_false, exists_false, or_false] at h
    exact .inr h
  | _ =>
    simp only [hkind] at h
    obtain h | ⟨_, s₁, hrequire, h⟩ := bind_eq_error.mp h
    · exact .inl ((require_moves (R := Eq) _ (.pure _) _).error h).symm
    · obtain ⟨-, rfl⟩ := require_eq_ok.mp hrequire
      simp only [bind_eq_error, pure_eq_error, and_false, exists_false, or_false] at h
      exact .inr h

/-! ## Findings -/

/-- The pass over the items has come to the item. -/
def ComesTo (cx : Setting) (ids : List NodeId) (table : TypeTable) (item : Item) (p : Progress) :
    Prop :=
  ∃ seen rest q, itemsFrom cx.arena 0 ids = .ok (seen ++ item :: rest) ∧
    registered cx (seen ++ item :: rest) table = .ok q ∧ q.checkItems cx seen = .ok p

theorem tracks_of_fresh (hfresh : ∀ v, cx.arena.Below root v → s.annotations.get? v = none) :
    Tracks cx root s.scope.globals s where
  kept _ _ h := h
  new _ _ h := .inl h
  bound v _ _ hv := absurd (hv.typed.symm.trans (hfresh v hv.exposed.below)) (by simp)

/-- What is there when the pass comes to an item: no frame is open, nothing inside the item has a
type, and all types are known. -/
theorem ComesTo.reached {program : Program} (htree : program.IsTree)
    (harena : cx.arena = program.arena) {table : TypeTable} (hcanonical : table.Canonical)
    (hbuiltin : cx.builtin.ClearIn .known table) {item : Item} {p : Progress}
    (h : ComesTo cx program.items table item p) :
    p.state.scope.frames = [] ∧ (∀ v, item.Inside cx v → p.state.annotations.get? v = none) ∧
      p.state.table.Canonical ∧ Knows .known [] cx p.state := by
  obtain ⟨seen, rest, q, hfrom, hregistered, hseen⟩ := h
  have hsteps := registered_steps hregistered
  have hready := ready_of_steps hsteps
  have hitems := itemsOf_of_itemsFrom htree (harena ▸ hfrom)
  have hvisited : Visited cx (seen ++ item :: rest) seen p :=
    Visited.checkItems (fun id hid => .inr (hready.annotated id hid)) hitems harena hseen
  have hnoValue : table.Known .noValue := TypeTable.known_of_form? hcanonical.noValue nofun nofun
  have hknows := knows_of_steps (Knows.start hbuiltin hnoValue _) hsteps
  refine ⟨frames_of_checkItems (frames_of_steps hsteps) hseen,
    fun v hv => hvisited.fresh hitems harena hv,
    hcanonical.grows (hready.table.trans (grows_of_checkItems hseen)),
    hknows.checkItems (fun other hother => ?_) (fun _ _ => nofun) hseen⟩
  exact harena ▸ hitems.node other (List.mem_append_left _ hother)

/-- If the item is no definition, not even its own node has a type. -/
theorem ComesTo.before {program : Program} (htree : program.IsTree)
    (harena : cx.arena = program.arena) {table : TypeTable} (hcanonical : table.Canonical)
    (hbuiltin : cx.builtin.ClearIn .known table) {item : Item} (hitem : ¬ item.IsRegistered)
    {p : Progress}
    (h : ComesTo cx program.items table item p) :
    p.state.scope.frames = [] ∧
      (∀ v, cx.arena.Below item.id v → p.state.annotations.get? v = none) ∧
      p.state.table.Canonical ∧ Knows .known [] cx p.state := by
  obtain ⟨hframes, hfresh, hrest⟩ := h.reached htree harena hcanonical hbuiltin
  exact ⟨hframes, fun v hv => hfresh v ⟨hv, fun hregistered => absurd hregistered hitem⟩, hrest⟩

/-- **What a failing item leaves behind.** When an item that is no definition ends in a finding, the
global names are those from before and, under new names, the variables that were finished. -/
theorem globals_of_finding {program : Program} (htree : program.IsTree)
    (harena : cx.arena = program.arena) {table : TypeTable} (hcanonical : table.Canonical)
    (hbuiltin : cx.builtin.ClearIn .known table) {item : Item} (hitem : ¬ item.IsRegistered)
    {p : Progress}
    (hcomes : ComesTo cx program.items table item p) {finding : Finding}
    (h : checkItem cx item p.state = .error (.error finding) s) :
    (∀ name binding, s.scope.globals.get? name = some binding ↔
      p.state.scope.globals.get? name = some binding ∨
        ∃ v, Finished cx item.id s.annotations v name binding) ∧
      ∀ v name binding, Finished cx item.id s.annotations v name binding →
        p.state.scope.globals.get? name = none := by
  obtain ⟨hframes, hfresh, hcanonical', hknows⟩ :=
    hcomes.before htree harena hcanonical hbuiltin hitem
  have hnode : cx.arena.node? item.id = some item.node := by
    obtain ⟨seen, rest, q, hfrom, -⟩ := hcomes
    rw [harena]
    exact (itemsOf_of_itemsFrom htree (harena ▸ hfrom)).node item (by simp)
  have htracks : Tracks cx item.id p.state.scope.globals s := by
    obtain rfl | hinfer := infer_of_checkItem hitem h
    · exact tracks_of_fresh hfresh
    · exact (inferAt_tracked (harena ▸ htree.isForest) _ item.id .refl).error hinfer hframes
        (tracks_of_fresh hfresh) finding rfl
  -- no variable was bound to `auto`
  have hknown : ∀ name binding, s.scope.globals.get? name = some binding →
      binding.type ≠ .auto := by
    intro name binding hbinding
    have hcarries : Moves (Carries .known [] cx) (checkItem cx item) :=
      checkItem_carries hnode nofun
    have hs := hcarries.error h hknows
    have hlater : Later (fun _ => True) p.state s := (checkItem_forward item).error h
    have htype := hs.bound binding (.inr ⟨name, hbinding⟩)
    exact TypeTable.Known.ne_auto htype (hlater.table.form? hcanonical'.auto)
  refine ⟨fun name binding => ⟨fun hbinding => ?_, ?_⟩, fun v name binding hv =>
    (htracks.bound v name binding hv).1⟩
  · exact (htracks.new name binding hbinding).imp_right
      fun hnew => hnew.resolve_left (hknown name binding hbinding)
  · rintro (hold | ⟨v, hv⟩)
    · exact htracks.kept name binding hold
    · exact (htracks.bound v name binding hv).2

end RuleTypes.Check
