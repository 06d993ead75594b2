import PullNotices.Proofs.Ascending
import PullNotices.Proofs.Pass.Delivery
import PullNotices.Proofs.Pass.Integration

/-! What a pass is influenced by. Of a pull request these are its key, the issues it refers to, whether
it carries the label and what the integrator says in comments on it. Two pull requests that agree on
them get programs that make the same requests in step, save that what is told carries the pull request
along. Such programs bring the same about as long as listeners heed nothing but the key and the event. -/
namespace PullNotices

/-- What a notice says: the key of the pull request and what has happened to it. -/
def Notice.content (notice : Notice) : Text × Event := (notice.pull.key,notice.event)

def Delivery.content (d : Delivery) : Nat × Text × Event := (d.listener,d.notice.content)

/-- Whether the listener fails on a notice, and with which words, hangs on what the notice says alone. -/
def Listener.Impartial (listener : Listener) : Prop :=
  ∀ past other notice second, Notice.content notice = Notice.content second →
    (listener.respond past notice).failure = (listener.respond other second).failure

namespace Delivery

variable {listeners : List Listener} {d e : Delivery}

theorem objection_congr (impartial : ∀ l ∈ listeners, l.Impartial) (same : d.content = e.content)
    (past other : List Delivery) : d.objection listeners past = e.objection listeners other := by
  have position : d.listener = e.listener := congrArg Prod.fst same
  have notice : d.notice.content = e.notice.content := congrArg Prod.snd same
  unfold objection
  rw [position]
  cases here : listeners[e.listener]? with
  | none => rfl
  | some listener => exact impartial listener (List.mem_of_getElem? here) _ _ _ _ notice

theorem upToFailure_congr (impartial : ∀ l ∈ listeners, l.Impartial) {due expected : List Delivery}
    (same : List.Forall₂ (fun d e => d.content = e.content) due expected) (past other : List Delivery) :
    List.Forall₂ (fun d e => d.content = e.content) (upToFailure listeners past due).1
        (upToFailure listeners other expected).1 ∧
      (upToFailure listeners past due).2 = (upToFailure listeners other expected).2 := by
  induction same generalizing past other with
  | nil => exact ⟨.nil,rfl⟩
  | @cons d e due expected first _ ih =>
    have answers := objection_congr impartial first past other
    cases answer : d.objection listeners past with
    | some words =>
      rw [upToFailure_failed answer,upToFailure_failed (answers ▸ answer)]
      exact ⟨.cons first .nil,rfl⟩
    | none =>
      obtain ⟨more,last⟩ := ih (past ++ [d]) (other ++ [e])
      rw [upToFailure_accepted answer,upToFailure_accepted (answers ▸ answer)]
      exact ⟨.cons first more,last⟩

end Delivery

/-- What leads from the first world to the third delivers what leads from the second to the fourth
delivers, and leaves the same files. -/
structure World.InStep (world other after last : World) : Prop where
  files : after.files = last.files
  delivered : ∃ more others, after.deliveries = world.deliveries ++ more ∧
    last.deliveries = other.deliveries ++ others ∧ List.Forall₂ (fun d e => d.content = e.content) more others

namespace World

variable {world other mid between after last : World} {listeners : List Listener}

theorem InStep.of_silent (files : after.files = last.files) (left : after.deliveries = world.deliveries)
    (right : last.deliveries = other.deliveries) : InStep world other after last where
  files := files
  delivered := ⟨[],[],by rw [left,List.append_nil],by rw [right,List.append_nil],.nil⟩

theorem InStep.trans (first : InStep world other mid between) (second : InStep mid between after last) :
    InStep world other after last where
  files := second.files
  delivered := by
    obtain ⟨early,others,left,right,same⟩ := first.delivered
    obtain ⟨late,rest,next,final,agree⟩ := second.delivered
    refine ⟨early ++ late,others ++ rest,?_,?_,List.rel_append same agree⟩
    · rw [next,left,List.append_assoc]
    · rw [final,right,List.append_assoc]

/-- Both end with the same answer, be it a failure, in step. -/
inductive Agree (world other : World) {α : Type} : World × Except Failure α → World × Except Failure α → Prop
  | ok (a : α) {after last : World} (step : InStep world other after last) : Agree world other (after,.ok a) (last,.ok a)
  | error (e : Failure) {after last : World} (step : InStep world other after last) :
      Agree world other (after,.error e) (last,.error e)

namespace Agree

variable {α : Type} {x y : World × Except Failure α}

theorem of_answer (answer : Except Failure α) (step : InStep world other after last) :
    Agree world other (after,answer) (last,answer) := by
  cases answer with
  | ok a => exact .ok a step
  | error e => exact .error e step

theorem from_later (first : InStep world other mid between) (rest : Agree mid between x y) : Agree world other x y := by
  cases rest with
  | ok a step => exact .ok a (first.trans step)
  | error e step => exact .error e (first.trans step)

theorem same (agree : Agree world other x y) : x.2 = y.2 ∧ InStep world other x.1 y.1 := by
  cases agree with
  | ok a step => exact ⟨rfl,step⟩
  | error e step => exact ⟨rfl,step⟩

end Agree

/-- The same request, made in two worlds with the same files, has the same answer in both. -/
theorem perform_silent {r : Request} (silent : ∀ notice, r ≠ .tell notice) (files : world.files = other.files)
    (listeners : List Listener) : Agree world other (world.perform listeners r) (other.perform listeners r) := by
  unfold perform
  cases r with
  | tell notice => exact absurd rfl (silent notice)
  | note line => exact .ok () (.of_silent files rfl rfl)
  | read path =>
    dsimp only
    rw [files]
    exact .of_answer _ (.of_silent files rfl rfl)
  | directory path =>
    dsimp only
    rw [files]
    split <;> exact .of_answer _ (.of_silent rfl rfl rfl)
  | replace path text =>
    dsimp only
    rw [files]
    split
    · exact .ok () (.of_silent rfl rfl rfl)
    · exact .error _ (.of_silent files rfl rfl)
    · exact .error _ (.of_silent files rfl rfl)

theorem tell_congr (impartial : ∀ l ∈ listeners, l.Impartial) {notice second : Notice}
    (same : notice.content = second.content) (files : world.files = other.files) :
    (world.tell listeners notice).2 = (other.tell listeners second).2 ∧
      InStep world other (world.tell listeners notice).1 (other.tell listeners second).1 := by
  obtain ⟨left,answer⟩ := world.tell_deliveries listeners notice
  obtain ⟨right,reply⟩ := other.tell_deliveries listeners second
  have round : List.Forall₂ (fun d e => d.content = e.content) (notice.round listeners.length)
      (second.round listeners.length) := by
    unfold Notice.round
    rw [List.forall₂_map_left_iff,List.forall₂_map_right_iff,List.forall₂_same]
    exact fun position _ => congrArg (position,·) same
  obtain ⟨heard,ended⟩ := Delivery.upToFailure_congr impartial round world.deliveries other.deliveries
  refine ⟨answer.trans (ended.trans reply.symm),?_,_,_,left,right,heard⟩
  rw [tell,tell,Site.tellFrom_files,Site.tellFrom_files,files]

theorem perform_tell_congr (impartial : ∀ l ∈ listeners, l.Impartial) {notice second : Notice}
    (same : notice.content = second.content) (files : world.files = other.files) :
    Agree world other (world.perform listeners (.tell notice)) (other.perform listeners (.tell second)) := by
  obtain ⟨answers,step⟩ := tell_congr impartial same files
  unfold perform
  dsimp only
  cases told : world.tell listeners notice with
  | mk after objection =>
    cases heard : other.tell listeners second with
    | mk last answer =>
      rw [told,heard] at answers step
      obtain rfl : objection = answer := answers
      cases objection with
      | none => exact .ok () step
      | some words => exact .error _ step

end World

/-- The programs make the same requests, but for what notices carry beside what they say. -/
inductive Program.Alike {α : Type} : Program α → Program α → Prop
  | done (a : α) : Alike (.done a) (.done a)
  | fail (e : Failure) : Alike (.fail e) (.fail e)
  | request {r : Request} {next other : r.Reply → Program α} (silent : ∀ notice, r ≠ .tell notice)
      (rest : ∀ reply, Alike (next reply) (other reply)) : Alike (.request r next) (.request r other)
  | tell {notice second : Notice} {next other : Unit → Program α} (same : notice.content = second.content)
      (rest : Alike (next ()) (other ())) : Alike (.request (.tell notice) next) (.request (.tell second) other)

namespace Program.Alike

variable {α β : Type}

protected theorem refl (p : Program α) : p.Alike p := by
  induction p with
  | done a => exact .done a
  | fail e => exact .fail e
  | request r next ih =>
    cases r with
    | tell notice => exact .tell rfl (ih ())
    | _ => exact .request nofun ih

theorem bind {p q : Program α} {f g : α → Program β} (alike : p.Alike q) (rest : ∀ a, (f a).Alike (g a)) :
    (p.bind f).Alike (q.bind g) := by
  induction alike with
  | done a => exact rest a
  | fail e => exact .fail e
  | request silent _ ih => exact .request silent ih
  | tell same _ ih => exact .tell same ih

theorem telling {pull other : PullRequest} (key : pull.key = other.key) (events : List Event) :
    (Program.tell pull events).Alike (Program.tell other events) := by
  induction events with
  | nil => exact .done ()
  | cons event events ih => exact .tell (by rw [Notice.content,Notice.content,key]) ih

/-- Run in worlds with the same files, they come to the same end. -/
theorem run {p q : Program α} {listeners : List Listener} (alike : p.Alike q)
    (impartial : ∀ l ∈ listeners, l.Impartial) {world other : World} (files : world.files = other.files) :
    World.Agree world other (p.run listeners world) (q.run listeners other) := by
  induction alike generalizing world other with
  | done a => exact .ok a (.of_silent files rfl rfl)
  | fail e => exact .error e (.of_silent files rfl rfl)
  | request silent _ ih =>
    have answers := World.perform_silent silent files listeners
    unfold Program.run
    generalize world.perform listeners _ = asked,other.perform listeners _ = second at answers ⊢
    cases answers with
    | ok reply step => exact .from_later step (ih reply step.files)
    | error e step => exact .error e step
  | tell same _ ih =>
    have answers := World.perform_tell_congr impartial same files
    unfold Program.run
    generalize world.perform listeners _ = asked,other.perform listeners _ = second at answers ⊢
    cases answers with
    | ok reply step => exact .from_later step (ih step.files)
    | error e step => exact .error e step

end Program.Alike

namespace PullRequest

/-- All that a pass which trusts this integrator and this label can tell the pull requests apart by
is the same. -/
structure Alike (trust : Trust) (a b : PullRequest) : Prop where
  key : a.key = b.key
  issues : ∀ id, id ∈ Issue.referenced a.body ↔ id ∈ Issue.referenced b.body
  label : trust.label ∈ a.labels ↔ trust.label ∈ b.labels
  announced : (a.commentsBy trust.integrator).map Comment.body = (b.commentsBy trust.integrator).map Comment.body

variable {trust : Trust} {a b : PullRequest}

theorem Alike.integratedAs? (alike : a.Alike trust b) : a.integratedAs? trust = b.integratedAs? trust := by
  have bodies (pull : PullRequest) : (pull.commentsBy trust.integrator).findSome? (fun c => Evidence.find? c.body) =
      ((pull.commentsBy trust.integrator).map Comment.body).findSome? Evidence.find? := by
    rw [List.findSome?_map]
    rfl
  unfold PullRequest.integratedAs?
  rw [bodies a,bodies b,alike.announced]
  exact if_congr alike.label rfl rfl

theorem Alike.snapshot (alike : a.Alike trust b) : a.snapshot trust = b.snapshot trust := by
  have issues : Issue.referenced a.body = Issue.referenced b.body := TextSet.eq_of_mem_iff alike.issues
  unfold PullRequest.snapshot
  simp only [alike.key,issues,alike.integratedAs?]

theorem Alike.evidenceLog (alike : a.Alike trust b) : a.evidenceLog trust = b.evidenceLog trust := by
  unfold PullRequest.evidenceLog
  rw [alike.integratedAs?,alike.key]
  exact if_congr (and_congr_left' alike.label) rfl rfl

theorem Alike.passName (alike : a.Alike trust b) : a.passName = b.passName := by
  have joined (pull : PullRequest) : pull.passName = "Notify.PR@" ++ pull.key := by
    simp [PullRequest.passName,PullRequest.key]
  rw [joined,joined,alike.key]

end PullRequest

namespace Pass

variable {trust : Trust} {plan : Store.Plan} {a b : PullRequest}

theorem snapshot_alike (alike : a.Alike trust b) : (Pass.mk a trust plan).snapshot = (Pass.mk b trust plan).snapshot := by
  unfold snapshot
  rw [alike.evidenceLog,alike.snapshot]

theorem announce_alike (alike : a.Alike trust b) (store : Store) (entry : Entry) (stored : Option Entry) :
    ((Pass.mk a trust plan).announce store entry stored).Alike ((Pass.mk b trust plan).announce store entry stored) := by
  cases stored with
  | none => exact .telling alike.key _
  | some stored =>
    have refresh : (Pass.mk a trust plan).refresh store stored = (Pass.mk b trust plan).refresh store stored := by
      unfold refresh
      rw [snapshot_alike alike]
    have line (entry stored : Entry) :
        (Pass.mk a trust plan).changesLog stored entry = (Pass.mk b trust plan).changesLog stored entry := by
      unfold changesLog
      rw [alike.passName]
    unfold announce
    dsimp only
    rw [refresh]
    refine .bind (.refl _) fun stored => ?_
    rw [line]
    exact .bind (.refl _) fun _ => .telling alike.key _

theorem program_alike (alike : a.Alike trust b) (scratch : Path) :
    ((Pass.mk a trust plan).program scratch).Alike ((Pass.mk b trust plan).program scratch) := by
  unfold program
  rw [snapshot_alike alike,alike.passName]
  refine .bind (.refl _) fun store => .bind (.refl _) fun fresh => .bind (.refl _) fun history => ?_
  dsimp only
  split
  · exact .refl _
  · exact .bind (announce_alike alike _ _ _) fun _ => .refl _

/-- Passes over pull requests that are alike come to the same end wherever the files are the same,
whatever these hold: they deliver notices that say the same, to the same listeners and in the same
order, they have the same result, be it a failure, and they leave the same files, the history among
them. -/
theorem run_alike (alike : a.Alike trust b) {listeners : List Listener} (impartial : ∀ l ∈ listeners, l.Impartial)
    {world other : World} (files : world.files = other.files) (site : Site) :
    let e := Episode.ofRun site ⟨a,trust,plan⟩ listeners world
    let f := Episode.ofRun site ⟨b,trust,plan⟩ listeners other
    (∃ more others, e.after.deliveries = world.deliveries ++ more ∧ f.after.deliveries = other.deliveries ++ others ∧
      more.map Delivery.content = others.map Delivery.content) ∧
    e.result = f.result ∧ e.after.files = f.after.files := by
  obtain ⟨result,step⟩ := ((program_alike alike site.scratch).run impartial files).same
  obtain ⟨more,others,left,right,same⟩ := step.delivered
  refine ⟨⟨more,others,left,right,?_⟩,result,step.files⟩
  exact List.forall₂_eq_eq_eq ▸ List.forall₂_map_left_iff.mpr (List.forall₂_map_right_iff.mpr same)

end Pass

def PullRequest.honest : PullRequest :=
  (Pass.sample "17" "\n\n## Issue\n[A](u): a" ["Pushed as commit 1111111111111111111111111111111111111111."]).pull

/-- Another user announces another commit before the integrator does. -/
def PullRequest.forged : PullRequest :=
  { honest with
    title := "Integrated"
    body := "See below.\n\n## Issue\n[A](v): another title"
    labels := .ofList ["ready","integrated"]
    comments := ⟨⟨"eve","bot"⟩,"Pushed as commit 2222222222222222222222222222222222222222.",[],none⟩ :: honest.comments }

def Listener.againstIntegration : Listener :=
  ⟨fun _ notice => ⟨[],if notice.event.isIntegrated then some "too late" else none⟩⟩

def Episode.heeding (pull : PullRequest) : Episode :=
  .ofRun .sample ⟨pull,⟨"bot","integrated"⟩,Site.sample.plan⟩ [.logging,.againstIntegration] .empty

theorem Pass.run_alike_forged :
    (Episode.heeding .forged).after.deliveries.map Delivery.content =
        (Episode.heeding .honest).after.deliveries.map Delivery.content ∧
      (Episode.heeding .honest).after.deliveries.length = 6 ∧
      (Episode.heeding .forged).result = .error (.listener "too late") ∧
      (Episode.heeding .forged).after.files = (Episode.heeding .honest).after.files := by
  have issues : Issue.referenced PullRequest.honest.body = Issue.referenced PullRequest.forged.body := by decide +kernel
  have alike : PullRequest.Alike ⟨"bot","integrated"⟩ .honest .forged :=
    ⟨rfl,fun _ => by rw [issues],by decide +kernel,by decide +kernel⟩
  have impartial : ∀ l ∈ [Listener.logging,.againstIntegration], l.Impartial := by
    intro l member past other notice second same
    have event : notice.event = second.event := congrArg Prod.snd same
    rcases List.mem_pair.mp member with rfl | rfl
    · rfl
    · simp only [Listener.againstIntegration,event]
  have empty : World.empty.files = World.empty.files := rfl
  obtain ⟨⟨more,others,left,right,same⟩,result,files⟩ := @run_alike _ Site.sample.plan _ _ alike _ impartial _ _ empty .sample
  have left : (Episode.heeding .honest).after.deliveries = more := left
  have right : (Episode.heeding .forged).after.deliveries = others := right
  have ended : (Episode.heeding .honest).result = .error (.listener "too late") := by decide +kernel
  exact ⟨by rw [left,right,same],by decide +kernel,result.symm.trans ended,files.symm⟩

end PullNotices
