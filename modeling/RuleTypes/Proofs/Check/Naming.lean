import RuleTypes.Proofs.Check.Flow
import RuleTypes.Proofs.Check.Lexical

/-!
# What a name stands for

A name in rule code refers to the nearest declaration around it: a variable that was declared before
in the same or an enclosing block, loop or function, or a parameter of the function
(`Arena.RefersTo`). Where there is none, it is a global name. `NameType` reads the type of a name
off the types of the declarations; it mentions neither frames nor the order in which names were
bound.

The rest of the module follows the scope of a check. Where the inference of a node begins, every
name has the binding that the declaration around the node calls for (`Oriented`). This is carried
from a node to its parts (`Midway.oriented`) and past the parts that were looked at (`Midway.step`).
-/

namespace RuleTypes

open Relation

/-- The parts of a node in the order in which they are looked at: the arguments of a call come
before what is called. -/
def NodeKind.inOrder : NodeKind → List NodeId
  | .call callee args => args ++ [callee]
  | kind => kind.children

theorem NodeKind.inOrder_perm (kind : NodeKind) : kind.inOrder.Perm kind.children := by
  cases kind with
  | call callee args => exact List.perm_append_singleton callee args
  | _ => exact .refl _

/-! ## Declarations around a node -/

namespace Arena

variable {arena : Arena} {name : String} {id part parent v d : NodeId} {before : List NodeId}

/-- The node declares a variable of the name. -/
def IsVariable (arena : Arena) (v : NodeId) (name : String) : Prop :=
  ∃ node written start, arena.node? v = some node ∧ node.kind = .var name written start

/-- The node is a function with a parameter of the name. -/
def HasParam (arena : Arena) (f : NodeId) (name : String) : Prop :=
  ∃ node own kind params result body, arena.node? f = some node ∧
    node.kind = .function own kind params result body ∧ name ∈ params.map (·.1)

/-- The node defines a function of the name and the kind. One that is defined elsewhere is used like
one that is not of a special kind. -/
def IsFunction (arena : Arena) (f : NodeId) (name : String) (kind : FunctionKind) : Prop :=
  ∃ node, arena.node? f = some node ∧
    ((∃ params written body, node.kind = .function name kind params written body) ∨
      kind = .normal ∧ ∃ params written, node.kind = .foreign name params written)

/-- The node defines a struct of the name. -/
def IsStruct (arena : Arena) (d : NodeId) (name : String) : Prop :=
  ∃ node fields, arena.node? d = some node ∧ node.kind = .struct name fields

/-- The node is a variable of the name in the item, outside blocks, loops and functions. -/
def IsGlobal (arena : Arena) (item v : NodeId) (name : String) : Prop :=
  arena.Exposed item v ∧ arena.IsVariable v name ∧ ∀ own kind, ¬ arena.IsFunction item own kind

/-- The node is a part of the parent, and the nodes `before` are the parts looked at before it. -/
def IsPart (arena : Arena) (parent : NodeId) (before : List NodeId) (part : NodeId) : Prop :=
  ∃ node after, arena.node? parent = some node ∧ node.kind.inOrder = before ++ part :: after

/-- After the parts `before` of a node, the name stands for a declaration: a variable outside the
blocks and loops of these parts, or a parameter of the node. -/
inductive Introduces (arena : Arena) (name : String) (id : NodeId) (before : List NodeId) :
    NodeId → Prop
  | var {part v : NodeId} (hpart : part ∈ before) (hexposed : arena.Exposed part v)
      (hname : arena.IsVariable v name) : Introduces arena name id before v
  | param (h : arena.HasParam id name) : Introduces arena name id before id

/-- Where the node stands, the name refers to the declaration: the nearest one that comes before, in
the nodes around. -/
inductive RefersTo (arena : Arena) (name : String) : NodeId → NodeId → Prop
  | here {parent part d : NodeId} {before : List NodeId} (hpart : arena.IsPart parent before part)
      (h : arena.Introduces name parent before d) : RefersTo arena name part d
  | outward {parent part d : NodeId} {before : List NodeId}
      (hpart : arena.IsPart parent before part)
      (hnothing : ∀ d, ¬ arena.Introduces name parent before d)
      (h : RefersTo arena name parent d) : RefersTo arena name part d

theorem IsPart.isChild (h : arena.IsPart parent before part) : arena.IsChild parent part := by
  obtain ⟨node, after, hnode, hsplit⟩ := h
  refine ⟨node, hnode, node.kind.inOrder_perm.mem_iff.mp ?_⟩
  rw [hsplit]
  exact List.mem_append_right _ (List.mem_cons_self ..)

/-- In a forest, a node has one place. -/
theorem IsPart.unique (hforest : arena.IsForest) {parent' : NodeId} {before' : List NodeId}
    (h : arena.IsPart parent before part) (h' : arena.IsPart parent' before' part) :
    parent = parent' ∧ before = before' := by
  obtain rfl := hforest.eq_of_isChild _ _ _ h.isChild h'.isChild
  obtain ⟨node, after, hnode, hsplit⟩ := h
  obtain ⟨node', after', hnode', hsplit'⟩ := h'
  obtain rfl := Option.some.inj (hnode.symm.trans hnode')
  have hnodup : (before ++ part :: after).Nodup := by
    rw [← hsplit, node.kind.inOrder_perm.nodup_iff]
    exact hforest.once parent node hnode
  have hnodup' : (before' ++ part :: after').Nodup := by
    rwa [← hsplit', hsplit]
  have hfirst : part ∉ before := fun h =>
    (List.nodup_append.mp hnodup).2.2 part h part (List.mem_cons_self ..) rfl
  have hfirst' : part ∉ before' := fun h =>
    (List.nodup_append.mp hnodup').2.2 part h part (List.mem_cons_self ..) rfl
  exact ⟨rfl, (List.append_inj (hsplit.symm.trans hsplit') (by
    have := congrArg (List.idxOf part) (hsplit.symm.trans hsplit')
    rwa [List.idxOf_append_of_notMem hfirst, List.idxOf_append_of_notMem hfirst',
      List.idxOf_cons_self, List.idxOf_cons_self, Nat.add_zero, Nat.add_zero] at this)).1⟩

/-- What a name refers to, seen from the place of a node. -/
theorem refersTo_iff (hforest : arena.IsForest) (hpart : arena.IsPart parent before part) :
    arena.RefersTo name part d ↔ arena.Introduces name parent before d ∨
      (∀ d, ¬ arena.Introduces name parent before d) ∧ arena.RefersTo name parent d := by
  constructor
  · rintro (⟨hpart', h⟩ | ⟨hpart', hnothing, h⟩)
    · obtain ⟨rfl, rfl⟩ := hpart.unique hforest hpart'
      exact .inl h
    · obtain ⟨rfl, rfl⟩ := hpart.unique hforest hpart'
      exact .inr ⟨hnothing, h⟩
  · rintro (h | ⟨hnothing, h⟩)
    · exact .here hpart h
    · exact .outward hpart hnothing h

/-- At top level nothing is around. -/
theorem not_refersTo_of_root (hroot : ∀ parent, ¬ arena.IsChild parent id) :
    ¬ arena.RefersTo name id d := by
  rintro (⟨hpart, -⟩ | ⟨hpart, -, -⟩) <;> exact hroot _ hpart.isChild

theorem introduces_nil_iff :
    arena.Introduces name id [] d ↔ d = id ∧ arena.HasParam id name := by
  constructor
  · rintro (⟨hpart, -, -⟩ | h)
    · cases hpart
    · exact ⟨rfl, h⟩
  · rintro ⟨rfl, h⟩
    exact .param h

theorem introduces_append_singleton_iff :
    arena.Introduces name id (before ++ [part]) d ↔ arena.Introduces name id before d ∨
      arena.Exposed part d ∧ arena.IsVariable d name := by
  constructor
  · rintro (⟨hpart, hexposed, hname⟩ | h)
    · obtain hpart | hpart := List.mem_append.mp hpart
      · exact .inl (.var hpart hexposed hname)
      · obtain rfl := List.mem_singleton.mp hpart
        exact .inr ⟨hexposed, hname⟩
    · exact .inl (.param h)
  · rintro ((⟨hpart, hexposed, hname⟩ | h) | ⟨hexposed, hname⟩)
    · exact .var (List.mem_append_left _ hpart) hexposed hname
    · exact .param h
    · exact .var (List.mem_append_right _ (List.mem_singleton.mpr rfl)) hexposed hname

/-- A binding that a node can make is that of a variable it exposes. -/
theorem Declares.exists_variable {binding : Binding} (h : arena.Declares id name binding) :
    ∃ v, arena.Exposed id v ∧ arena.IsVariable v name := by
  obtain ⟨v, hv, node, written, start, hnode, hkind, -⟩ := h
  exact ⟨v, hv, node, written, start, hnode, hkind⟩

end Arena

namespace Check

variable {cx : Setting} {globals : NameMap Binding} {s s' s'' : State} {name : String}
  {id part v : NodeId} {type : TypeId} {before : List NodeId}

/-! ## Types of names -/

/-- The node has a type, and the type is final. -/
def HasType (s : State) (id : NodeId) (type : TypeId) : Prop :=
  s.annotations.get? id = some type ∧ type ≠ .auto

/-- The declaration gives the name the type, going by the types of variables and functions. -/
inductive DeclaredType (cx : Setting) (s : State) (name : String) : NodeId → TypeId → Prop
  | var {v : NodeId} {type : TypeId} (hname : cx.arena.IsVariable v name)
      (htype : HasType s v type) : DeclaredType cx s name v type
  | param {f body : NodeId} {node : Node} {own : String} {kind : FunctionKind}
      {params : List (String × TypeExpr)} {written : Option TypeExpr} {paramTypes : List TypeId}
      {signature result type : TypeId} (hnode : cx.arena.node? f = some node)
      (hkind : node.kind = .function own kind params written body)
      (hsignature : HasType s f signature)
      (hform : s.table.form? signature = some (.function paramTypes result))
      (hparam : (name, type) ∈ (params.map (·.1)).zip paramTypes) :
      DeclaredType cx s name f type

/-- Where the node stands, the name has the type: that of the declaration it refers to, or of the
global name if there is none. -/
inductive NameType (cx : Setting) (globals : NameMap Binding) (s : State) (name : String)
    (id : NodeId) : TypeId → Prop
  | inside {d : NodeId} {type : TypeId} (hrefers : cx.arena.RefersTo name id d)
      (htype : ∀ d, cx.arena.RefersTo name id d → DeclaredType cx s name d type) :
      NameType cx globals s name id type
  | global {binding : Binding} (hnothing : ∀ d, ¬ cx.arena.RefersTo name id d)
      (hget : globals.get? name = some binding) : NameType cx globals s name id binding.type

/-- Nothing in the nodes around and no global declares the name. -/
def Unbound (cx : Setting) (globals : NameMap Binding) (name : String) (id : NodeId) : Prop :=
  (∀ d, ¬ cx.arena.RefersTo name id d) ∧ globals.get? name = none

/-! ## Types that stay -/

/-- The later state knows as much about types, and final types stayed. -/
structure Advances (s s' : State) : Prop where
  table : s.table.Extends s'.table
  names : s'.names = s.names
  operators : s'.operators = s.operators
  members : s'.members = s.members
  lasts : Lasts s s'

theorem Later.advances {N : NodeId → Prop} (h : Later N s s') : Advances s s' :=
  ⟨h.table, h.names, h.operators, h.members, h.lasts⟩

theorem Advances.trans (h : Advances s s') (h' : Advances s' s'') : Advances s s'' where
  table := h.table.trans h'.table
  names := h'.names.trans h.names
  operators := h'.operators.trans h.operators
  members := h'.members.trans h.members
  lasts id type htype hfinal := h'.lasts id type (h.lasts id type htype hfinal) hfinal

theorem HasType.advances (h : HasType s id type) (hadvances : Advances s s') : HasType s' id type :=
  ⟨hadvances.lasts id type h.1 h.2, h.2⟩

theorem DeclaredType.advances (h : DeclaredType cx s name id type) (hadvances : Advances s s') :
    DeclaredType cx s' name id type := by
  cases h with
  | var hname htype => exact .var hname (htype.advances hadvances)
  | param hnode hkind hsignature hform hparam =>
    exact .param hnode hkind (hsignature.advances hadvances) (hadvances.table.form? hform) hparam

theorem NameType.advances (h : NameType cx globals s name id type) (hadvances : Advances s s') :
    NameType cx globals s' name id type := by
  cases h with
  | inside hrefers htype =>
    exact .inside hrefers fun d hd => (htype d hd).advances hadvances
  | global hnothing hget => exact .global hnothing hget

/-! ## The scope of a check -/

/-- The name is bound as it has to be where the node stands. -/
structure Finds (cx : Setting) (globals : NameMap Binding) (s : State) (name : String)
    (id : NodeId) : Prop where
  inside : ∀ d, cx.arena.RefersTo name id d → ∃ binding, s.scope.lookup name = some binding ∧
    DeclaredType cx s name d binding.type
  global : (∀ d, ¬ cx.arena.RefersTo name id d) → s.scope.lookup name = globals.get? name

/-- Every name is bound as it has to be where the node stands. -/
def Oriented (cx : Setting) (globals : NameMap Binding) (s : State) (id : NodeId) : Prop :=
  ∀ name, Finds cx globals s name id

/-- After the parts `before` of a node, what they and the node introduce is bound in the innermost
frame, and all other names are bound as they have to be where the node stands. -/
structure Midway (cx : Setting) (globals : NameMap Binding) (s : State) (id : NodeId)
    (before : List NodeId) : Prop where
  here : ∀ name d, cx.arena.Introduces name id before d →
    ∃ binding, s.scope.current.get? name = some binding ∧ DeclaredType cx s name d binding.type
  outer : ∀ name, (∀ d, ¬ cx.arena.Introduces name id before d) → Finds cx globals s name id

/-- Every variable of the node outside its blocks and loops is bound in the innermost frame to the
type it has. -/
def InScope (cx : Setting) (s : State) (id : NodeId) : Prop :=
  ∀ v name, cx.arena.Exposed id v → cx.arena.IsVariable v name →
    ∃ binding, s.scope.current.get? name = some binding ∧ HasType s v binding.type

theorem Finds.nameType {binding : Binding} (h : Finds cx globals s name id)
    (hlookup : s.scope.lookup name = some binding) :
    NameType cx globals s name id binding.type := by
  by_cases hd : ∃ d, cx.arena.RefersTo name id d
  · obtain ⟨d, hd⟩ := hd
    refine .inside hd fun d hd => ?_
    obtain ⟨binding', hlookup', htype⟩ := h.inside d hd
    obtain rfl := Option.some.inj (hlookup.symm.trans hlookup')
    exact htype
  · have hnothing := not_exists.mp hd
    exact .global hnothing ((h.global hnothing).symm.trans hlookup)

theorem Finds.unbound (h : Finds cx globals s name id)
    (hlookup : s.scope.lookup name = none) : Unbound cx globals name id := by
  have hnothing : ∀ d, ¬ cx.arena.RefersTo name id d := by
    intro d hd
    obtain ⟨binding, hbinding, -⟩ := h.inside d hd
    exact nomatch hlookup.symm.trans hbinding
  exact ⟨hnothing, (h.global hnothing).symm.trans hlookup⟩

/-- What a name is bound to may be seen from another state that knows as much. -/
theorem Finds.of_lookup (h : Finds cx globals s name id) (hadvances : Advances s s')
    (hlookup : s'.scope.lookup name = s.scope.lookup name) : Finds cx globals s' name id where
  inside d hd := by
    obtain ⟨binding, hbinding, htype⟩ := h.inside d hd
    exact ⟨binding, hlookup.trans hbinding, htype.advances hadvances⟩
  global hnothing := hlookup.trans (h.global hnothing)

/-- At top level, names are global. -/
theorem oriented_of_root (hroot : ∀ parent, ¬ cx.arena.IsChild parent id)
    (hframes : s.scope.frames = []) : Oriented cx s.scope.globals s id := fun name =>
  ⟨fun _ hd => (Arena.not_refersTo_of_root hroot hd).elim,
    fun _ => Scope.lookup_of_global hframes name⟩

namespace Midway

/-- Where a part stands, names are bound as they have to be. -/
theorem oriented (h : Midway cx globals s id before) (hforest : cx.arena.IsForest)
    (hpart : cx.arena.IsPart id before part) : Oriented cx globals s part := by
  intro name
  by_cases hhere : ∃ d, cx.arena.Introduces name id before d
  · refine ⟨fun d hd => ?_, fun hnothing => ?_⟩
    · obtain hd | ⟨hnothing, -⟩ := (Arena.refersTo_iff hforest hpart).mp hd
      · obtain ⟨binding, hget, htype⟩ := h.here name d hd
        exact ⟨binding, Scope.lookup_of_current hget, htype⟩
      · exact absurd hhere (not_exists.mpr hnothing)
    · obtain ⟨d, hd⟩ := hhere
      exact absurd (.here hpart hd) (hnothing d)
  · have hnothing := not_exists.mp hhere
    have hsame : ∀ d, cx.arena.RefersTo name part d ↔ cx.arena.RefersTo name id d := fun d => by
      rw [Arena.refersTo_iff hforest hpart]
      exact ⟨fun hd => (hd.resolve_left (hnothing d)).2, fun hd => .inr ⟨hnothing, hd⟩⟩
    have hid := h.outer name hnothing
    exact ⟨fun d hd => hid.inside d ((hsame d).mp hd),
      fun hnone => hid.global fun d hd => hnone d ((hsame d).mpr hd)⟩

/-- A part that was looked at leaves its variables behind, and changes nothing else. -/
theorem step (h : Midway cx globals s id before) (hadvances : Advances s s')
    (hgains : s.scope.Gains (cx.arena.Declares part) s'.scope) (hpart : InScope cx s' part) :
    Midway cx globals s' id (before ++ [part]) where
  here name d hd := by
    obtain hd | ⟨hexposed, hname⟩ := Arena.introduces_append_singleton_iff.mp hd
    · obtain ⟨binding, hget, htype⟩ := h.here name d hd
      exact ⟨binding, hgains.get?_current hget, htype.advances hadvances⟩
    · obtain ⟨binding, hget, htype⟩ := hpart d name hexposed hname
      exact ⟨binding, hget, .var hname htype⟩
  outer name hnothing := by
    have hbefore : ∀ d, ¬ cx.arena.Introduces name id before d := fun d hd =>
      hnothing d (Arena.introduces_append_singleton_iff.mpr (.inl hd))
    refine (h.outer name hbefore).of_lookup hadvances (hgains.gainsUnder.lookup_eq ?_)
    intro binding hdeclares
    obtain ⟨v, hv⟩ := hdeclares.exists_variable
    exact hnothing v (Arena.introduces_append_singleton_iff.mpr (.inr hv))

/-- Nothing but names is looked at in the scope. -/
theorem of_scope (h : Midway cx globals s id before) (hadvances : Advances s s')
    (hscope : s'.scope = s.scope) : Midway cx globals s' id before where
  here name d hd := by
    obtain ⟨binding, hget, htype⟩ := h.here name d hd
    exact ⟨binding, hscope ▸ hget, htype.advances hadvances⟩
  outer name hnothing := (h.outer name hnothing).of_lookup hadvances (by rw [hscope])

end Midway

/-- Where a node other than a function stands, its first part can be looked at. -/
theorem Oriented.midway (h : Oriented cx globals s id)
    (hparam : ∀ name, ¬ cx.arena.HasParam id name) : Midway cx globals s id [] where
  here name _ hd := (hparam name (Arena.introduces_nil_iff.mp hd).2).elim
  outer name _ := h name

/-- An empty frame hides nothing. -/
theorem Oriented.push {kind : FrameKind} {opened : Scope} (h : Oriented cx globals s id)
    (hpush : s.scope.push kind = .ok opened) :
    Oriented cx globals { s with scope := opened } id := by
  intro name
  have hadvances : Advances s { s with scope := opened } :=
    (Later.of_scope (N := fun _ => True) s opened).advances
  refine (h name).of_lookup hadvances ?_
  obtain ⟨-, rfl⟩ := Scope.push_eq_ok.mp hpush
  rfl

end Check

end RuleTypes
