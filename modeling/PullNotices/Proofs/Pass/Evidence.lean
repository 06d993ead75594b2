import PullNotices.Proofs.Forge.Evidence
import PullNotices.Proofs.Pass.Delivery
import PullNotices.Proofs.Pass.Integration

/-! Integrations are told of on evidence only. Whatever is delivered was told of in the course of the
pass, an integration is news only where no commit is recorded, not even a placeholder, and then the
commit is that of the snapshot: one that the integrator announced in a comment on the same pull
request. -/
namespace PullNotices

theorem World.perform_delivers (world : World) (listeners : List Listener) (r : Request) :
    ∃ more, (world.perform listeners r).1.deliveries = world.deliveries ++ more ∧
      ∀ d ∈ more, d.notice ∈ r.notice?.toList := by
  have nothing {after : World} (same : after.deliveries = world.deliveries) :
      ∃ more, after.deliveries = world.deliveries ++ more ∧ ∀ d ∈ more, d.notice ∈ r.notice?.toList :=
    ⟨[],by rw [same,List.append_nil],nofun⟩
  cases r with
  | tell notice =>
    obtain ⟨heard,_⟩ := world.tell_deliveries listeners notice
    have same : (world.perform listeners (.tell notice)).1.deliveries =
        (world.tell listeners notice).1.deliveries := by
      unfold perform
      dsimp only
      split <;> rename_i told <;> rw [told]
    refine ⟨_,same.trans heard,?_⟩
    intro d member
    obtain ⟨position,_,rfl⟩ := List.mem_map.mp ((Delivery.upToFailure_prefix _ _ _).subset member)
    exact List.mem_singleton_self notice
  | directory path =>
    apply nothing
    unfold perform
    dsimp only
    split <;> rfl
  | replace path text =>
    apply nothing
    unfold perform
    dsimp only
    split <;> rfl
  | read path => exact nothing rfl
  | note line => exact nothing rfl

/-- Nothing is delivered that was not told of. -/
theorem Course.delivers {α : Type} {listeners : List Listener} {p : Program α} {world after : World}
    {told : List Notice} {result : Except Failure α} (course : Course listeners p world told after result) :
    ∃ more, after.deliveries = world.deliveries ++ more ∧ ∀ d ∈ more, d.notice ∈ told := by
  induction course with
  | went granted rest ih =>
    rename_i r _ world mid after reply told result
    obtain ⟨first,here,own⟩ := world.perform_delivers listeners r
    obtain ⟨more,later,others⟩ := ih
    rw [granted] at here
    refine ⟨first ++ more,?_,?_⟩
    · rw [later,here,List.append_assoc]
    · intro d member
      exact List.mem_append.mpr ((List.mem_append.mp member).imp (own d) (others d))
  | stopped failed =>
    rename_i r _ world after e
    have delivered := world.perform_delivers listeners r
    rw [failed] at delivered
    exact delivered
  | _ => exact ⟨[],(List.append_nil _).symm,nofun⟩

namespace Pass

variable {pass : Pass} {h : History}

theorem evidence_of_fresh {hash : Hash} (commit : pass.fresh.commit.hash? = some hash) :
    pass.pull.integratedAs? pass.trust = some hash ∧ hash ≠ Hash.zero := by
  change (Commit.ofHash? (pass.pull.integratedAs? pass.trust)).hash? = some hash at commit
  cases found : pass.pull.integratedAs? pass.trust with
  | none =>
    rw [found] at commit
    cases commit
  | some announced =>
    rw [found] at commit
    change (Commit.ofHash announced).hash? = some hash at commit
    unfold Commit.ofHash at commit
    split at commit
    · cases commit
    · rename_i real
      cases commit
      exact ⟨rfl,real⟩

/-- The integration that is news was announced on this pull request, and no commit is recorded. -/
theorem evidence_of_news {hash : Hash} (member : .integrated hash ∈ pass.news h) :
    pass.pull.integratedAs? pass.trust = some hash ∧ hash ≠ Hash.zero ∧
      ∀ stored, h.find? pass.pull.key = some stored → stored.commit = .unknown := by
  obtain ⟨commit,unknown⟩ := integrated_mem_news member
  have fresh : pass.entryOver h = pass.fresh := by
    apply entryOver_of_not_known
    intro stored found
    rw [unknown stored found]
    rfl
  rw [fresh] at commit
  obtain ⟨announced,real⟩ := evidence_of_fresh commit
  exact ⟨announced,real,unknown⟩

end Pass

/-- An integration that is delivered in a pass, be the pass completed or not, is about its pull request.
That carries the label, the integrator announced the hash in a comment on it, and the pass found no
commit recorded under its key, not even a placeholder. -/
theorem Episode.integration_evident {site : Site} {e : Episode} {h : History} (lawful : e.At site)
    (here : site.recorded e.before = .ok h) :
    ∃ more, e.after.deliveries = e.before.deliveries ++ more ∧ ∀ d ∈ more, ∀ hash, d.notice.event = .integrated hash →
      d.notice.pull = e.pass.pull ∧ e.pass.trust.label ∈ e.pass.pull.labels ∧
      (∃ comment ∈ e.pass.pull.comments, comment.author.id = e.pass.trust.integrator ∧
        hash.announced <:+: comment.body) ∧
      (hash.digits.length = 40 ∧ (∀ c ∈ hash.digits, c ∈ Text.ofString "0123456789abcdef") ∧
        ∃ c ∈ hash.digits, c ≠ '0') ∧
      ∀ stored, h.find? e.pass.pull.key = some stored → stored.commit = .unknown := by
  obtain ⟨more,delivered,told⟩ := lawful.course.delivers
  refine ⟨more,delivered,?_⟩
  intro d member hash integrated
  obtain ⟨done,rest,whole,notices,_⟩ := lawful.errands here
  have agenda : d.notice ∈ Errand.notices (e.pass.agenda h) := by
    rw [whole,Errand.notices_append]
    exact List.mem_append_left _ (notices ▸ told d member)
  obtain ⟨pull,news⟩ := Pass.notices_agenda agenda
  rw [integrated] at news
  obtain ⟨found,real,unknown⟩ := Pass.evidence_of_news news
  obtain ⟨label,comment⟩ := PullRequest.evidence_of_integratedAs? found
  have hex : ∀ c ∈ hash.digits, c ∈ Text.ofString "0123456789abcdef" := by
    intro c inside
    exact CodePoint.mem_of_isLowerHex (List.all_eq_true.mp hash.isLowerHex_digits c inside)
  exact ⟨pull,label,comment,⟨hash.length_digits,hex,Hash.exists_ne_zero real⟩,unknown⟩

/-- A pass that a listener stops on the integration; not every comment announces a commit. -/
def Episode.objected : Episode :=
  .ofRun .sample (.sample "17" "" ["Pushed.","Pushed as commit 1111111111111111111111111111111111111111."])
    [.idle,⟨fun _ notice => ⟨[],if notice.event.isIntegrated then some [] else none⟩⟩] .empty

theorem Episode.integration_evident_objected : objected.completed = false ∧
    ∃ d ∈ objected.after.deliveries, ∃ hash, d.notice.event = .integrated hash ∧
      (∃ comment ∈ objected.pass.pull.comments, comment.author.id = Text.ofString "bot" ∧
        hash.announced <:+: comment.body) ∧
      ∃ c ∈ hash.digits, c ≠ '0' := by
  have lawful : objected.At .sample := .ofRun rfl (Pass.sample_pairFree _ _ _) _ _
  obtain ⟨more,delivered,evident⟩ := integration_evident lawful Site.recorded_sample
  have delivered : objected.after.deliveries = more := delivered
  have some : ∃ d ∈ objected.after.deliveries, d.notice.event.isIntegrated = true := by decide +kernel
  obtain ⟨d,member,integrated⟩ := some
  refine ⟨by decide +kernel,d,member,?_⟩
  cases event : d.notice.event with
  | integrated hash =>
    obtain ⟨_,_,comment,⟨_,_,nonzero⟩,_⟩ := evident d (delivered ▸ member) hash event
    exact ⟨hash,rfl,comment,nonzero⟩
  | _ => simp [event,Event.isIntegrated] at integrated

end PullNotices
