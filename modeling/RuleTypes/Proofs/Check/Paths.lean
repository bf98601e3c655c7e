import RuleTypes.Proofs.Check.Complete

/-!
# Ways through rule code

`Arena.Runs` says how rule code can be run, leaving open what is chosen: statements run in order
until one leaves, a branch takes one arm or skips a missing one, and a loop runs its body any number
of times and can be left by `break`. A run ends with a jump that nothing caught, or it is completed
with a final node, the one that the value is taken from, or without one.

In rule code that was checked, every run ends as the types say (`Runs.fits`). So a run of the body
of a function with a result ends in a `return` of a value of the result type, or at a final node of
that type (`FunctionFlows.ends`).
-/

namespace RuleTypes

/-! ## Runs -/

/-- How a run of rule code ends. -/
inductive Exit
  /-- A jump was taken and nothing caught it; `value` is what it carries. -/
  | left (jump : Jump) (value : Option NodeId)
  /-- The end was reached; `final` is the node that has the value, if there is one. -/
  | completed (final : Option NodeId)
  deriving DecidableEq, Repr

namespace Exit

/-- The same end without a value. -/
def withoutFinal : Exit → Exit
  | left jump value => left jump value
  | completed _ => completed none

/-- How a loop ends whose round ended in this way, if it does not go on. -/
def fromRound : Exit → Option Exit
  | left .toCaller value => some (left .toCaller value)
  | left .afterLoop _ => some (completed none)
  | left .nextRound _ => none
  | completed _ => none

end Exit

namespace NodeKind

/-- The parts of a node that are run one after another before the node itself. Blocks, branches and
loops have an order of their own, and the body of a function is not run where it stands. -/
def operands? : NodeKind → Option (List NodeId)
  | block _ | branch .. | loop .. => none
  | function .. => some []
  | kind => some kind.children

/-- How the node ends when its operands are run to their end: a jump is taken, an assignment has no
value, and any other node is its own final node. -/
def exit (id : NodeId) : NodeKind → Exit
  | jump kind value => .left kind value
  | assign .. => .completed none
  | _ => .completed (some id)

end NodeKind

/-- Rule code that can be run: a node, a node whose kind is known, nodes one after another, or the
rounds of a loop. -/
inductive Code
  | node (id : NodeId)
  | kind (id : NodeId) (kind : NodeKind)
  | sequence (ids : List NodeId)
  | rounds (condition body : NodeId)

/-- The code can be run and ends in the given way. -/
inductive Arena.Runs (arena : Arena) : Code → Exit → Prop
  | node {id : NodeId} {node : Node} {exit : Exit} (hnode : arena.node? id = some node)
      (h : Runs arena (.kind id node.kind) exit) : Runs arena (.node id) exit
  -- statements
  | nothing : Runs arena (.sequence []) (.completed none)
  /-- The last statement is the final one unless it is a definition or a jump. -/
  | last {id : NodeId} {node : Node} {final final' : Option NodeId}
      (hnode : arena.node? id = some node) (h : Runs arena (.node id) (.completed final))
      (hfinal : final' = if node.kind.isDefinition || node.kind.isJump then none else final) :
      Runs arena (.sequence [id]) (.completed final')
  | next {id : NodeId} {ids : List NodeId} {final : Option NodeId} {exit : Exit} (hids : ids ≠ [])
      (h : Runs arena (.node id) (.completed final)) (hrest : Runs arena (.sequence ids) exit) :
      Runs arena (.sequence (id :: ids)) exit
  | leave {id : NodeId} {ids : List NodeId} {jump : Jump} {value : Option NodeId}
      (h : Runs arena (.node id) (.left jump value)) :
      Runs arena (.sequence (id :: ids)) (.left jump value)
  -- nodes that run their parts in order
  | operands {id : NodeId} {kind : NodeKind} {ids : List NodeId} {final : Option NodeId}
      {exit : Exit} (hids : kind.operands? = some ids)
      (h : Runs arena (.sequence ids) (.completed final)) (hexit : exit = kind.exit id) :
      Runs arena (.kind id kind) exit
  | operandLeaves {id : NodeId} {kind : NodeKind} {ids : List NodeId} {jump : Jump}
      {value : Option NodeId} (hids : kind.operands? = some ids)
      (h : Runs arena (.sequence ids) (.left jump value)) :
      Runs arena (.kind id kind) (.left jump value)
  | block {id : NodeId} {statements : List NodeId} {exit : Exit}
      (h : Runs arena (.sequence statements) exit) : Runs arena (.kind id (.block statements)) exit
  -- branches
  | conditionLeaves {id condition thenArm : NodeId} {elseArm : Option NodeId} {jump : Jump}
      {value : Option NodeId} (h : Runs arena (.node condition) (.left jump value)) :
      Runs arena (.kind id (.branch condition thenArm elseArm)) (.left jump value)
  | thenArm {id condition thenArm elseArm : NodeId} {final : Option NodeId} {exit : Exit}
      (hcondition : Runs arena (.node condition) (.completed final))
      (h : Runs arena (.node thenArm) exit) :
      Runs arena (.kind id (.branch condition thenArm (some elseArm))) exit
  | elseArm {id condition thenArm elseArm : NodeId} {final : Option NodeId} {exit : Exit}
      (hcondition : Runs arena (.node condition) (.completed final))
      (h : Runs arena (.node elseArm) exit) :
      Runs arena (.kind id (.branch condition thenArm (some elseArm))) exit
  /-- Without an `else`, the arm gives no value. -/
  | onlyArm {id condition thenArm : NodeId} {final : Option NodeId} {exit exit' : Exit}
      (hcondition : Runs arena (.node condition) (.completed final))
      (h : Runs arena (.node thenArm) exit) (hexit : exit' = exit.withoutFinal) :
      Runs arena (.kind id (.branch condition thenArm none)) exit'
  | skip {id condition thenArm : NodeId} {final : Option NodeId}
      (hcondition : Runs arena (.node condition) (.completed final)) :
      Runs arena (.kind id (.branch condition thenArm none)) (.completed none)
  -- loops
  | loop {id condition body : NodeId} {start : Option NodeId} {first exit : Exit}
      (hstart : Runs arena (.sequence start.toList) first) (hfirst : first.fromRound = none)
      (h : Runs arena (.rounds condition body) exit) :
      Runs arena (.kind id (.loop start condition body)) exit
  | startLeaves {id condition body : NodeId} {start : Option NodeId} {first exit : Exit}
      (hstart : Runs arena (.sequence start.toList) first)
      (hfirst : first.fromRound = some exit) :
      Runs arena (.kind id (.loop start condition body)) exit
  | stop {condition body : NodeId} {final : Option NodeId}
      (h : Runs arena (.node condition) (.completed final)) :
      Runs arena (.rounds condition body) (.completed none)
  | round {condition body : NodeId} {first exit : Exit}
      (hround : Runs arena (.sequence [condition, body]) first) (hfirst : first.fromRound = none)
      (h : Runs arena (.rounds condition body) exit) : Runs arena (.rounds condition body) exit
  | roundLeaves {condition body : NodeId} {first exit : Exit}
      (hround : Runs arena (.sequence [condition, body]) first)
      (hfirst : first.fromRound = some exit) : Runs arena (.rounds condition body) exit

/-! ## Code that returns on every path -/

namespace Arena

variable {arena : Arena} {id : NodeId} {ids : List NodeId} {final : Option NodeId}

/-- When statements are run to their end, so is the last one. -/
theorem Runs.completed_last {last : NodeId} (h : arena.Runs (.sequence ids) (.completed final))
    (hlast : ids.getLast? = some last) : ∃ final, arena.Runs (.node last) (.completed final) := by
  induction ids generalizing final with
  | nil => cases hlast
  | cons id ids ih =>
    cases h with
    | last hnode h =>
      obtain rfl : id = last := by simpa using hlast
      exact ⟨_, h⟩
    | next hids h hrest =>
      obtain ⟨next, ids, rfl⟩ := List.exists_cons_of_ne_nil hids
      exact ih hrest (by rwa [List.getLast?_cons_cons] at hlast)

/-- Code that returns on every path is never run to its end. -/
theorem not_completed_of_returnsAt {depth : Nat} (h : arena.returnsAt depth id = .ok true) :
    ¬ arena.Runs (.node id) (.completed final) := by
  induction depth generalizing id final with
  | zero => cases h
  | succ depth ih =>
    rintro ⟨hnode, hruns⟩
    unfold returnsAt at h
    rename_i node
    simp only [hnode] at h
    generalize node.kind = kind at h hruns
    cases kind with
    | jump kind value =>
      cases hruns with
      | operands _ _ hexit => cases hexit
    | block statements =>
      cases hruns with
      | operands hids => cases hids
      | block hruns =>
        cases hlast : statements.getLast? with
        | none => simp [hlast] at h
        | some last =>
          simp only [hlast] at h
          obtain ⟨final, hlastRuns⟩ := hruns.completed_last hlast
          exact ih h hlastRuns
    | branch condition thenArm elseArm =>
      cases elseArm with
      | none => simp at h
      | some elseArm =>
        obtain ⟨thenReturns, hthen, h⟩ := except_bind_eq_ok.mp h
        cases thenReturns with
        | false => cases h
        | true =>
          cases hruns with
          | operands hids => cases hids
          | thenArm _ hruns => exact ih hthen hruns
          | elseArm _ hruns => exact ih h hruns
    | _ => cases h

end Arena

/-! ## Runs of checked code -/

namespace Check

variable {cx : Setting} {s : State} {result : Option TypeId} {loop : Bool} {type : TypeId}

/-- What is right about the end of a run, when the function around has the given result, `loop` says
whether a loop is around and the code has the given type. -/
def ExitFits (s : State) (result : Option TypeId) (loop : Bool) (type : TypeId) : Exit → Prop
  | .left .toCaller none => result = some .noValue
  | .left .toCaller (some value) => result ≠ none ∧ s.annotations.get? value = result
  | .left .afterLoop _ => loop = true
  | .left .nextRound _ => loop = true
  | .completed none => type = .noValue
  | .completed (some final) => s.annotations.get? final = some type

/-- What is to be shown of a run of the code. -/
def RunFits (cx : Setting) (s : State) (result : Option TypeId) (exit : Exit) : Code → Prop
  | .node id => ∀ loop type, Flows cx s result loop id → s.annotations.get? id = some type →
    ExitFits s result loop type exit
  | .kind id kind => ∀ loop type, FlowRule cx s result loop type kind →
    (∀ child ∈ kind.children, Flows cx s result (loop || kind.isLoop) child) →
    s.annotations.get? id = some type → ExitFits s result loop type exit
  | .sequence ids => ∀ loop type, (∀ id ∈ ids, Flows cx s result loop id) →
    (∀ final, exit = .completed final → BlockType cx s ids type) → ExitFits s result loop type exit
  | .rounds condition body => ∀ loop, Flows cx s result true condition →
    Flows cx s result true body → ExitFits s result loop .noValue exit

/-- A jump that is taken is right whatever type the code has. -/
theorem ExitFits.left {jump : Jump} {value : Option NodeId} {type' : TypeId}
    (h : ExitFits s result loop type (.left jump value)) :
    ExitFits s result loop type' (.left jump value) := by
  cases jump <;> cases value <;> exact h

/-- What leaves a loop is right outside of it. -/
theorem ExitFits.fromRound {first exit : Exit} (h : ExitFits s result true type first)
    (hfirst : first.fromRound = some exit) : ExitFits s result loop .noValue exit := by
  cases first with
  | completed => cases hfirst
  | left jump value =>
    cases jump with
    | nextRound => cases hfirst
    | afterLoop =>
      cases hfirst
      rfl
    | toCaller =>
      cases hfirst
      cases value <;> exact h

theorem ExitFits.withoutFinal {exit : Exit} (h : ExitFits s result loop type exit) :
    ExitFits s result loop .noValue exit.withoutFinal := by
  cases exit with
  | completed => rfl
  | left => exact h.left

theorem mem_children_of_operands? {kind : NodeKind} {ids : List NodeId}
    (h : kind.operands? = some ids) : (∀ id ∈ ids, id ∈ kind.children) ∧ kind.isLoop = false := by
  cases kind <;> simp_all [NodeKind.operands?, NodeKind.isLoop]

/-- A node that ran its operands ends as its type says. -/
theorem exitFits_exit {id : NodeId} {kind : NodeKind} {ids : List NodeId}
    (hids : kind.operands? = some ids) (hrule : FlowRule cx s result loop type kind)
    (htype : s.annotations.get? id = some type) : ExitFits s result loop type (kind.exit id) := by
  cases kind with
  | jump jump value => cases jump <;> cases value <;> exact hrule
  | assign => exact hrule
  | block | branch | loop => cases hids
  | _ => exact htype

/-- **Runs of checked code end as the types say.** -/
theorem runFits_of_runs {code : Code} {exit : Exit} (h : cx.arena.Runs code exit) :
    RunFits cx s result exit code := by
  induction h with
  | node hnode h ih =>
    intro loop type hflows htype
    obtain ⟨hnode', htype', -, hrule, hparts⟩ := hflows
    obtain rfl := Option.some.inj (hnode'.symm.trans hnode)
    obtain rfl := Option.some.inj (htype'.symm.trans htype)
    exact ih loop _ hrule hparts htype
  | nothing => exact fun loop type _ hblock => hblock none rfl
  | @last id node final final' hnode h hfinal ih =>
    intro loop type hflows hblock
    obtain ⟨node', hnode', hblock⟩ := hblock final' rfl
    obtain rfl := Option.some.inj (hnode'.symm.trans hnode)
    split at hblock
    · rw [hfinal, if_pos ‹_›]
      exact hblock
    · rw [hfinal, if_neg ‹_›]
      exact ih loop type (hflows id (List.mem_singleton.mpr rfl)) hblock
  | @next id ids final exit hids h hrest ih ihrest =>
    intro loop type hflows hblock
    refine ihrest loop type (fun i hi => hflows i (List.mem_cons_of_mem _ hi)) fun final hexit => ?_
    obtain ⟨next, ids, rfl⟩ := List.exists_cons_of_ne_nil hids
    have hblock := hblock final hexit
    rwa [BlockType, List.getLast?_cons_cons] at hblock
  | @leave id ids jump value h ih =>
    intro loop type hflows _
    have hfirst := hflows id (List.mem_cons_self ..)
    obtain ⟨found, hfound, -⟩ := hfirst.exists_type
    exact (ih loop found hfirst hfound).left
  | operands hids h hexit ih =>
    intro loop type hrule _ htype
    rw [hexit]
    exact exitFits_exit hids hrule htype
  | operandLeaves hids h ih =>
    intro loop type _ hparts _
    obtain ⟨hmem, hloop⟩ := mem_children_of_operands? hids
    rw [hloop, Bool.or_false] at hparts
    exact ih loop type (fun i hi => hparts i (hmem i hi)) nofun
  | block h ih =>
    intro loop type hrule hparts _
    exact ih loop type (fun i hi => Bool.or_false loop ▸ hparts i hi) fun _ _ => hrule
  | @conditionLeaves id condition thenArm elseArm jump value h ih =>
    intro loop type _ hparts _
    have hcondition : Flows cx s result loop condition :=
      Bool.or_false loop ▸ hparts condition (List.mem_cons_self ..)
    obtain ⟨found, hfound, -⟩ := hcondition.exists_type
    exact (ih loop found hcondition hfound).left
  | @thenArm id condition thenArm elseArm final exit hcondition h _ ih =>
    intro loop type hrule hparts _
    exact ih loop type (Bool.or_false loop ▸ hparts thenArm (by simp [NodeKind.children])) hrule.1
  | @elseArm id condition thenArm elseArm final exit hcondition h _ ih =>
    intro loop type hrule hparts _
    exact ih loop type (Bool.or_false loop ▸ hparts elseArm (by simp [NodeKind.children])) hrule.2
  | @onlyArm id condition thenArm final exit exit' hcondition h hexit _ ih =>
    intro loop type hrule hparts _
    have hthen : Flows cx s result loop thenArm :=
      Bool.or_false loop ▸ hparts thenArm (by simp [NodeKind.children])
    obtain ⟨found, hfound, -⟩ := hthen.exists_type
    obtain rfl : type = .noValue := hrule
    rw [hexit]
    exact (ih loop found hthen hfound).withoutFinal
  | skip hcondition ih => exact fun _ _ hrule _ _ => hrule
  | @loop id condition body start first exit hstart hfirst h _ ih =>
    intro loop type hrule hparts _
    obtain rfl : type = .noValue := hrule
    rw [NodeKind.isLoop, Bool.or_true] at hparts
    exact ih loop (hparts condition (by simp [NodeKind.children]))
      (hparts body (by simp [NodeKind.children]))
  | @startLeaves id condition body start first exit hstart hfirst ih =>
    intro loop type hrule hparts _
    obtain rfl : type = .noValue := hrule
    rw [NodeKind.isLoop, Bool.or_true] at hparts
    refine (ih true .noValue (fun i hi => hparts i ?_) fun final hexit => ?_).fromRound hfirst
    · exact List.mem_append_left _ hi
    · subst hexit
      cases hfirst
  | stop h ih => exact fun _ _ _ => rfl
  | round hround hfirst h _ ih => exact ih
  | @roundLeaves condition body first exit hround hfirst ih =>
    intro loop hcondition hbody
    refine (ih true .noValue (by simp [hcondition, hbody]) fun final hexit => ?_).fromRound hfirst
    subst hexit
    cases hfirst

/-- **Functions with a result never fall off the end.** A run of the body of a checked function
returns a value of the result type or completes at a final node of that type. -/
theorem FunctionFlows.ends {signature : TypeId} {body : NodeId}
    (h : FunctionFlows cx s signature body) {params : List TypeId} {result : TypeId}
    (hform : s.table.form? signature = some (.function params result)) (hresult : result ≠ .noValue)
    {exit : Exit} (hruns : cx.arena.Runs (.node body) exit) :
    (∃ value, exit = .left .toCaller (some value) ∧ s.annotations.get? value = some result) ∨
      ∃ final, exit = .completed (some final) ∧ s.annotations.get? final = some result := by
  obtain ⟨params', result', found, hform', hfound, hflows, hfits⟩ := h
  cases hform.symm.trans hform'
  have hexit : ExitFits s (some result) false found exit :=
    runFits_of_runs hruns false found hflows hfound
  cases exit with
  | left jump value =>
    cases jump with
    | afterLoop | nextRound => cases hexit
    | toCaller =>
      cases value with
      | none => exact absurd (Option.some.inj hexit) hresult
      | some value => exact .inl ⟨value, rfl, hexit.2⟩
  | completed final =>
    obtain rfl | ⟨-, hreturns⟩ := hfits
    · cases final with
      | none => exact absurd hexit hresult
      | some final => exact .inr ⟨final, rfl, hexit⟩
    · exact absurd hruns (Arena.not_completed_of_returnsAt hreturns)

end Check

end RuleTypes
