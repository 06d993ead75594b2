import PullNotices.Forge.Snapshot
import PullNotices.Forge.Task
import PullNotices.Store

/-!
Passes. A pass compares the entry of a pull request with its snapshot, tells listeners of the
difference and then records it. The events depend on the two entries alone. A recorded commit is
never cleared, and an entry from before commits were recorded takes the commit of the snapshot
before anything is told, so that an integration long past is not told of.
-/
namespace PullNotices

namespace Entry

/-- The fresh entry, with the commit of the stored one where only that is known. -/
def keepingCommit (fresh : Entry) : Option Entry → Entry
  | some stored =>
    if stored.commit.isKnown ∧ ¬ fresh.commit.isKnown then fresh.withCommit stored.commit else fresh
  | none => fresh

def integration (e : Entry) : List Event := (e.commit.hash?.map Event.integrated).toList

def introduction (e : Entry) : List Event :=
  .opened :: e.issues.members.map Event.issueAdded ++ e.integration

/-- What listeners that know `stored` are told: issues that are gone, new issues, and an integration
if none was recorded. -/
def changes (stored fresh : Entry) : List Event :=
  (stored.issues.without fresh.issues).members.map Event.issueRemoved ++
    (fresh.issues.without stored.issues).members.map Event.issueAdded ++
    if stored.commit = .unknown then fresh.integration else []

end Entry

structure Pass where
  pull : PullRequest
  trust : Trust
  plan : Store.Plan

namespace Pass

def folder : Text := "notify"

def snapshot (pass : Pass) : Program Entry := do
  Program.note (pass.pull.evidenceLog pass.trust)
  return pass.pull.snapshot pass.trust

/-- Gives a commit to an entry from before commits were recorded. -/
def refresh (pass : Pass) (store : Store) (stored : Entry) : Program Entry := do
  if stored.commit.isPlaceholder then
    let fresh ← pass.snapshot
    let entry := stored.withCommit fresh.commit
    Program.note [⟨.debug, "Upgrading legacy history entry " ++ entry.key ++ " to commit " ++
      entry.commit.display⟩]
    store.put entry
    return entry
  else return stored

def changesLog (pass : Pass) (stored fresh : Entry) : Log.Line :=
  ⟨.debug, pass.pull.passName ++ ": " ++ Text.ofNat (stored.issues.without fresh.issues).size ++
    " issue(s) removed, " ++ Text.ofNat (fresh.issues.without stored.issues).size ++ " added"⟩

def announce (pass : Pass) (store : Store) (entry : Entry) : Option Entry → Program Unit
  | none => Program.tell pass.pull entry.introduction
  | some stored => do
    let stored ← pass.refresh store stored
    Program.note [pass.changesLog stored entry]
    Program.tell pass.pull (stored.changes entry)

def program (pass : Pass) (scratch : Path) : Program Unit := do
  let store ← pass.plan.openIn (scratch.join (Path.ofText folder))
  let fresh ← pass.snapshot
  let history ← store.current
  let stored := history.find? fresh.key
  let entry := fresh.keepingCommit stored
  if stored = some entry then
    Program.note [⟨.debug, pass.pull.passName ++ ": already up to date"⟩]
  else
    pass.announce store entry stored
    store.put entry

end Pass
end PullNotices
