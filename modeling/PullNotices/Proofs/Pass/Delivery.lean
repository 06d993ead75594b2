import PullNotices.World

/-! Deliveries. A notice goes to the listeners in their order, and of all that is to be delivered only
the part up to the first delivery that its listener fails on is delivered. -/
namespace PullNotices

namespace Delivery

/-- The words with which its listener fails on a delivery, after these earlier ones. -/
def objection (listeners : List Listener) (past : List Delivery) (d : Delivery) : Option Text :=
  listeners[d.listener]?.bind fun listener =>
    (listener.respond (World.heardBy ⟨.empty,past,[]⟩ d.listener) d.notice).failure

/-- The deliveries that are due up to the first that fails, and the words of that one. -/
def upToFailure (listeners : List Listener) : (past due : List Delivery) → List Delivery × Option Text
  | _,[] => ([],none)
  | past,d :: due =>
    match d.objection listeners past with
    | some words => ([d],some words)
    | none =>
      let rest := upToFailure listeners (past ++ [d]) due
      (d :: rest.1,rest.2)

variable {listeners : List Listener} {past due later : List Delivery} {d : Delivery} {words : Text}

theorem upToFailure_failed (failed : d.objection listeners past = some words) :
    upToFailure listeners past (d :: due) = ([d],some words) := by
  rw [upToFailure,failed]

theorem upToFailure_accepted (accepted : d.objection listeners past = none) :
    upToFailure listeners past (d :: due) =
      (d :: (upToFailure listeners (past ++ [d]) due).1,(upToFailure listeners (past ++ [d]) due).2) := by
  rw [upToFailure,accepted]

theorem upToFailure_prefix (listeners : List Listener) (past due : List Delivery) :
    (upToFailure listeners past due).1 <+: due := by
  induction due generalizing past with
  | nil => exact List.prefix_rfl
  | cons d due ih =>
    cases answer : d.objection listeners past with
    | some words =>
      rw [upToFailure_failed answer]
      exact (List.prefix_cons_inj d).mpr List.nil_prefix
    | none =>
      rw [upToFailure_accepted answer]
      exact (List.prefix_cons_inj d).mpr (ih _)

/-- Without a failure all that is due is delivered. -/
theorem upToFailure_complete (none : (upToFailure listeners past due).2 = none) :
    (upToFailure listeners past due).1 = due := by
  induction due generalizing past with
  | nil => rfl
  | cons d due ih =>
    cases answer : d.objection listeners past with
    | some words =>
      rw [upToFailure_failed answer] at none
      cases none
    | none =>
      rw [upToFailure_accepted answer] at none ⊢
      exact congrArg (d :: ·) (ih none)

theorem upToFailure_append_failed (failed : (upToFailure listeners past due).2 = some words) :
    upToFailure listeners past (due ++ later) = upToFailure listeners past due := by
  induction due generalizing past with
  | nil => cases failed
  | cons d due ih =>
    rw [List.cons_append]
    cases answer : d.objection listeners past with
    | some words => rw [upToFailure_failed answer,upToFailure_failed answer]
    | none =>
      rw [upToFailure_accepted answer] at failed
      rw [upToFailure_accepted answer,upToFailure_accepted answer,ih failed]

theorem upToFailure_append_accepted (accepted : (upToFailure listeners past due).2 = none) :
    upToFailure listeners past (due ++ later) = (due ++ (upToFailure listeners (past ++ due) later).1,
      (upToFailure listeners (past ++ due) later).2) := by
  induction due generalizing past with
  | nil => simp
  | cons d due ih =>
    cases answer : d.objection listeners past with
    | some words =>
      rw [upToFailure_failed answer] at accepted
      cases accepted
    | none =>
      rw [upToFailure_accepted answer] at accepted
      rw [List.cons_append,upToFailure_accepted answer,ih accepted,List.append_assoc]
      rfl

end Delivery

/-- The deliveries of a notice to as many listeners, in their order. -/
def Notice.round (notice : Notice) (count : Nat) : List Delivery :=
  (List.range count).map fun position => ⟨position,notice⟩

namespace World

theorem tellFrom_deliveries (notice : Notice) (front rest : List Listener) (world : World) :
    let round := (List.range' front.length rest.length).map fun position => (⟨position,notice⟩ : Delivery)
    let heard := Delivery.upToFailure (front ++ rest) world.deliveries round
    (tellFrom notice front.length rest world).1.deliveries = world.deliveries ++ heard.1 ∧
      (tellFrom notice front.length rest world).2 = heard.2 := by
  induction rest generalizing front world with
  | nil => exact ⟨(List.append_nil _).symm,rfl⟩
  | cons listener rest ih =>
    have here : (front ++ listener :: rest)[front.length]? = some listener := by simp
    have answer : Delivery.objection (front ++ listener :: rest) world.deliveries ⟨front.length,notice⟩ =
        (listener.respond (world.heardBy front.length) notice).failure := by
      rw [Delivery.objection,here]
      rfl
    rw [List.length_cons,List.range'_succ,List.map_cons]
    unfold tellFrom
    dsimp only
    split
    · rename_i words failed
      rw [failed] at answer
      rw [Delivery.upToFailure_failed answer]
      exact ⟨rfl,rfl⟩
    · rename_i accepted
      rw [accepted] at answer
      rw [Delivery.upToFailure_accepted answer]
      -- the listener joins those that were told
      have rest := ih (front ++ [listener]) { world.note (listener.respond (world.heardBy front.length) notice).log with
        deliveries := world.deliveries ++ [⟨front.length,notice⟩] }
      rw [List.length_append,List.append_assoc] at rest
      refine ⟨rest.1.trans ?_,rest.2⟩
      simp

/-- What is told of is delivered to one listener after another, until one fails. -/
theorem tell_deliveries (world : World) (listeners : List Listener) (notice : Notice) :
    let heard := Delivery.upToFailure listeners world.deliveries (notice.round listeners.length)
    (world.tell listeners notice).1.deliveries = world.deliveries ++ heard.1 ∧
      (world.tell listeners notice).2 = heard.2 := by
  have told := tellFrom_deliveries notice [] listeners world
  rw [List.length_nil,← List.range_eq_range'] at told
  exact told

end World

end PullNotices
