import RuleTypes.Proofs.Check.Members
import RuleTypes.Proofs.Check.Naming
import RuleTypes.Proofs.TypeExpr.Meaning

/-!
# Typing rules

`Typed cx globals s id kind type` says that a node has the type its rule gives it: from the types
that the state `s` holds for its parts, from the declarations that names refer to, with `globals`
for the names of the top level, and from what written types denote. It is a reading of the finished
annotations and does not look at how they came about. Everything it depends on stays while the table
is extended and other nodes are given types, so it goes on holding (`Typed.advances`).
-/

namespace RuleTypes.Check

open Relation

variable {cx : Setting} {globals : NameMap Binding} {s s' : State} {id : NodeId} {node : Node}
  {kind : NodeKind} {type : TypeId}

/-- The nodes have the types, in order. -/
def HasTypes (s : State) (ids : List NodeId) (types : List TypeId) : Prop :=
  List.Forall₂ (HasType s) ids types

/-- The type is the one that is written in the definition: the signature of a function, or the
struct with the name and the fields. -/
inductive Defines (s : State) : NodeKind → TypeId → Prop
  | function {name : String} {kind : FunctionKind} {params : List (String × TypeExpr)}
      {written : Option TypeExpr} {body : NodeId} {type : TypeId}
      (hwritten : (TypeExpr.function (params.map (·.2)) written).Denotes s.names s.table type) :
      Defines s (.function name kind params written body) type
  | foreign {name : String} {params : List (String × TypeExpr)} {written : Option TypeExpr}
      {type : TypeId}
      (hwritten : (TypeExpr.function (params.map (·.2)) written).Denotes s.names s.table type) :
      Defines s (.foreign name params written) type
  | struct {name : String} {fields : List (String × TypeExpr)}
      {fieldTypes : List (String × TypeId)} {type : TypeId} (hname : s.names.get? name = some type)
      (hform : s.table.form? type = some (.declared name fieldTypes))
      (hfields : fieldTypes.map (·.1) = fields.map (·.1))
      (hwritten : TypeExpr.DenotesAll s.names s.table (fields.map (·.2)) (fieldTypes.map (·.2))) :
      Defines s (.struct name fields) type

/-- A node has the type that its rule gives it. -/
inductive Typed (cx : Setting) (globals : NameMap Binding) (s : State) (id : NodeId) :
    NodeKind → TypeId → Prop
  | identifier {name : String} {type : TypeId} (htype : NameType cx globals s name id type) :
      Typed cx globals s id (.identifier name) type
  /-- A name without a declaration that is called is a symbol: it has the only one of its signatures
  that takes the arguments. -/
  | operator {symbol : String} {call : NodeId} {node : Node} {args : List NodeId}
      {argTypes : List TypeId} {type : TypeId} (hcall : cx.arena.node? call = some node)
      (hkind : node.kind = .call id args) (hunbound : Unbound cx globals symbol id)
      (hargs : HasTypes s args argTypes)
      (hselects : s.table.Selects (overloads cx s symbol) argTypes type) :
      Typed cx globals s id (.identifier symbol) type
  | number : Typed cx globals s id .number cx.builtin.number
  | string : Typed cx globals s id .string cx.builtin.string
  | member {base : NodeId} {field : String} {baseType type : TypeId}
      (hvalue : ∀ call args, ¬ MemberCall cx s call id base field args)
      (hbase : HasType s base baseType) (hfield : s.table.Offers baseType field type) :
      Typed cx globals s id (.member base field) type
  /-- A member function that is called has the only one of its signatures that takes the value it
  is called on and the arguments. -/
  | callee {base call : NodeId} {field : String} {args : List NodeId} {argTypes : List TypeId}
      {receiver type : TypeId} (hcall : MemberCall cx s call id base field args)
      (hbase : HasType s base receiver) (hargs : HasTypes s args argTypes)
      (hselects : s.table.Selects ((s.members.get? field).getD []) (receiver :: argTypes) type) :
      Typed cx globals s id (.member base field) type
  | index {base position : NodeId} {baseType type : TypeId} (hbase : HasType s base baseType)
      (hform : s.table.form? baseType = some (.generic Form.sliceName [type]))
      (hposition : HasType s position cx.builtin.number) :
      Typed cx globals s id (.index base position) type
  | call {callee : NodeId} {args : List NodeId} {argTypes : List TypeId} {calleeType type : TypeId}
      (hvalue : ∀ base name, ¬ MemberCall cx s id callee base name args)
      (hargs : HasTypes s args argTypes) (hcallee : HasType s callee calleeType)
      (hform : s.table.form? calleeType = some (.function argTypes type)) :
      Typed cx globals s id (.call callee args) type
  | memberCall {callee base : NodeId} {name : String} {args : List NodeId} {argTypes : List TypeId}
      {receiver calleeType type : TypeId} (hcall : MemberCall cx s id callee base name args)
      (hbase : HasType s base receiver) (hargs : HasTypes s args argTypes)
      (hcallee : HasType s callee calleeType)
      (hform : s.table.form? calleeType = some (.function (receiver :: argTypes) type)) :
      Typed cx globals s id (.call callee args) type
  | binary {symbol : String} {left right : NodeId} {leftType rightType type : TypeId}
      (hleft : HasType s left leftType) (hright : HasType s right rightType)
      (happlies : Applies cx s symbol [leftType, rightType] type) :
      Typed cx globals s id (.binary symbol left right) type
  | address {operand : NodeId} {operandType type : TypeId}
      (hoperand : HasType s operand operandType)
      (hform : s.table.form? type = some (.pointer operandType)) :
      Typed cx globals s id (.unary "&" operand) type
  | target {operand : NodeId} {operandType type : TypeId} (hoperand : HasType s operand operandType)
      (hform : s.table.form? operandType = some (.pointer type)) :
      Typed cx globals s id (.unary "*" operand) type
  | unary {symbol : String} {operand : NodeId} {operandType type : TypeId}
      (haddress : symbol ≠ "&") (htarget : symbol ≠ "*") (hoperand : HasType s operand operandType)
      (happlies : Applies cx s symbol [operandType] type) :
      Typed cx globals s id (.unary symbol operand) type
  | assign {target value : NodeId} {sideType : TypeId} (hne : sideType ≠ .noValue)
      (htarget : HasType s target sideType) (hvalue : HasType s value sideType) :
      Typed cx globals s id (.assign target value) .noValue
  | literal {written : TypeExpr} {members : Members} {memberTypes : List TypeId} {type : TypeId}
      (hwritten : written.Denotes s.names s.table type)
      (hmembers : HasTypes s (members.map (·.2)) memberTypes)
      (hfit : FitType s.table type ((members.map (·.1)).zip memberTypes)) :
      Typed cx globals s id (.literal (some written) members) type
  | record {members : Members} {memberTypes : List TypeId} {type : TypeId}
      (hmembers : HasTypes s (members.map (·.2)) memberTypes)
      (hform : s.table.form? type = some (.record ((memberNames 0 members).zip memberTypes))) :
      Typed cx globals s id (.literal none members) type
  | branch {condition thenArm : NodeId} {elseArm : Option NodeId} {thenType type : TypeId}
      (hcondition : HasType s condition cx.builtin.truth) (hthen : HasType s thenArm thenType)
      (helse : elseArm = none ∧ type = .noValue ∨
        ∃ arm, elseArm = some arm ∧ HasType s arm thenType ∧ type = thenType) :
      Typed cx globals s id (.branch condition thenArm elseArm) type
  | loop {start : Option NodeId} {condition body : NodeId}
      (hcondition : HasType s condition cx.builtin.truth) :
      Typed cx globals s id (.loop start condition body) .noValue
  | block {statements : List NodeId} {type : TypeId} (hblock : BlockType cx s statements type) :
      Typed cx globals s id (.block statements) type
  | jump (kind : Jump) (value : Option NodeId) : Typed cx globals s id (.jump kind value) .noValue
  | var {name : String} {written : TypeExpr} {start : NodeId} {type : TypeId}
      (hwritten : written = .auto ∨ written.Denotes s.names s.table type) (hne : type ≠ .noValue)
      (hstart : HasType s start type) : Typed cx globals s id (.var name written start) type
  /-- The body of a function has its result type, or returns on every path. -/
  | function {name : String} {kind : FunctionKind} {params : List (String × TypeExpr)}
      {written : Option TypeExpr} {body : NodeId} {paramTypes : List TypeId}
      {type result found : TypeId}
      (hdefines : Defines s (.function name kind params written body) type)
      (hform : s.table.form? type = some (.function paramTypes result))
      (hbody : HasType s body found)
      (hfits : found = result ∨ found = .noValue ∧ cx.arena.returns body = .ok true) :
      Typed cx globals s id (.function name kind params written body) type
  | foreign {name : String} {params : List (String × TypeExpr)} {written : Option TypeExpr}
      {type : TypeId} (hdefines : Defines s (.foreign name params written) type) :
      Typed cx globals s id (.foreign name params written) type
  | struct {name : String} {fields : List (String × TypeExpr)} {type : TypeId}
      (hdefines : Defines s (.struct name fields) type) :
      Typed cx globals s id (.struct name fields) type

/-! ## Typing goes on holding -/

theorem HasTypes.advances {ids : List NodeId} {types : List TypeId} (h : HasTypes s ids types)
    (hadvances : Advances s s') : HasTypes s' ids types := h.imp fun _ _ h => h.advances hadvances

theorem Advances.denotes (hadvances : Advances s s') {written : TypeExpr}
    (h : written.Denotes s.names s.table type) : written.Denotes s'.names s'.table type := by
  rw [hadvances.names]
  exact h.grows hadvances.table.grows

/-- What is written in a definition is read off the names and the table. -/
theorem Defines.extends (h : Defines s kind type) (hnames : s'.names = s.names)
    (htable : s.table.Extends s'.table) : Defines s' kind type := by
  cases h with
  | function hwritten => exact .function (hnames ▸ hwritten.grows htable.grows)
  | foreign hwritten => exact .foreign (hnames ▸ hwritten.grows htable.grows)
  | struct hname hform hfields hwritten =>
    exact .struct (hnames ▸ hname) (htable.form? hform) hfields
      (hnames ▸ hwritten.grows htable.grows)

theorem Defines.advances (h : Defines s kind type) (hadvances : Advances s s') :
    Defines s' kind type := h.extends hadvances.names hadvances.table

theorem Advances.applies (hadvances : Advances s s') {symbol : String} {args : List TypeId}
    (h : Applies cx s symbol args type) : Applies cx s' symbol args type := by
  obtain ⟨signature, hselects, hform⟩ := h
  refine ⟨signature, ?_, hadvances.table.form? hform⟩
  rw [overloads, hadvances.operators]
  exact hselects.extends hadvances.table

theorem Advances.memberCall_iff (hadvances : Advances s s') {call callee base : NodeId}
    {name : String} {args : List NodeId} :
    MemberCall cx s' call callee base name args ↔ MemberCall cx s call callee base name args :=
  ⟨fun h => h.of_members hadvances.members.symm, fun h => h.of_members hadvances.members⟩

/-- **Typing goes on holding** while the table is extended and final types stay. -/
theorem Typed.advances (h : Typed cx globals s id kind type) (hfinal : type ≠ .auto)
    (hadvances : Advances s s') : Typed cx globals s' id kind type := by
  have htable := hadvances.table
  cases h with
  | identifier htype => exact .identifier (htype.advances hadvances)
  | operator hcall hkind hunbound hargs hselects =>
    refine .operator hcall hkind hunbound (hargs.advances hadvances) ?_
    rw [overloads, hadvances.operators]
    exact hselects.extends htable
  | number => exact .number
  | string => exact .string
  | member hvalue hbase hfield =>
    exact .member (fun call args hcall => hvalue call args (hadvances.memberCall_iff.mp hcall))
      (hbase.advances hadvances) (hfield.extends htable)
  | callee hcall hbase hargs hselects =>
    refine .callee (hadvances.memberCall_iff.mpr hcall) (hbase.advances hadvances)
      (hargs.advances hadvances) ?_
    rw [hadvances.members]
    exact hselects.extends htable
  | index hbase hform hposition =>
    exact .index (hbase.advances hadvances) (htable.form? hform) (hposition.advances hadvances)
  | call hvalue hargs hcallee hform =>
    exact .call (fun base name hcall => hvalue base name (hadvances.memberCall_iff.mp hcall))
      (hargs.advances hadvances) (hcallee.advances hadvances) (htable.form? hform)
  | memberCall hcall hbase hargs hcallee hform =>
    exact .memberCall (hadvances.memberCall_iff.mpr hcall) (hbase.advances hadvances)
      (hargs.advances hadvances) (hcallee.advances hadvances) (htable.form? hform)
  | binary hleft hright happlies =>
    exact .binary (hleft.advances hadvances) (hright.advances hadvances)
      (hadvances.applies happlies)
  | address hoperand hform => exact .address (hoperand.advances hadvances) (htable.form? hform)
  | target hoperand hform => exact .target (hoperand.advances hadvances) (htable.form? hform)
  | unary haddress htarget hoperand happlies =>
    exact .unary haddress htarget (hoperand.advances hadvances) (hadvances.applies happlies)
  | assign hne htarget hvalue =>
    exact .assign hne (htarget.advances hadvances) (hvalue.advances hadvances)
  | literal hwritten hmembers hfit =>
    exact .literal (hadvances.denotes hwritten) (hmembers.advances hadvances) (hfit.extends htable)
  | record hmembers hform => exact .record (hmembers.advances hadvances) (htable.form? hform)
  | branch hcondition hthen helse =>
    refine .branch (hcondition.advances hadvances) (hthen.advances hadvances) (helse.imp_right ?_)
    rintro ⟨arm, rfl, harm, htype⟩
    exact ⟨arm, rfl, harm.advances hadvances, htype⟩
  | loop hcondition => exact .loop (hcondition.advances hadvances)
  | block hblock => exact .block (hblock.lasts hadvances.lasts hfinal)
  | jump kind value => exact .jump kind value
  | var hwritten hne hstart =>
    exact .var (hwritten.imp_right hadvances.denotes) hne (hstart.advances hadvances)
  | function hdefines hform hbody hfits =>
    exact .function (hdefines.advances hadvances) (htable.form? hform) (hbody.advances hadvances)
      hfits
  | foreign hdefines => exact .foreign (hdefines.advances hadvances)
  | struct hdefines => exact .struct (hdefines.advances hadvances)

/-! ## Trees of nodes -/

/-- The node and everything below it have final types, those that their rules give them. -/
def AllTyped (cx : Setting) (globals : NameMap Binding) (s : State) (id : NodeId) : Prop :=
  ∀ x, cx.arena.Below id x → ∃ node type, cx.arena.node? x = some node ∧ HasType s x type ∧
    Typed cx globals s x node.kind type

theorem AllTyped.advances (h : AllTyped cx globals s id) (hadvances : Advances s s') :
    AllTyped cx globals s' id := by
  intro x hx
  obtain ⟨node, type, hnode, htype, htyped⟩ := h x hx
  exact ⟨node, type, hnode, htype.advances hadvances, htyped.advances htype.2 hadvances⟩

theorem allTyped_of_parts (hnode : cx.arena.node? id = some node) (htype : HasType s id type)
    (htyped : Typed cx globals s id node.kind type)
    (hparts : ∀ child ∈ node.kind.children, AllTyped cx globals s child) :
    AllTyped cx globals s id := by
  intro x hx
  obtain rfl | ⟨child, ⟨node', hnode', hchild⟩, hbelow⟩ := ReflTransGen.cases_head hx
  · exact ⟨node, type, hnode, htype, htyped⟩
  · obtain rfl : node' = node := Option.some.inj (hnode'.symm.trans hnode)
    exact hparts child hchild x hbelow

end RuleTypes.Check
