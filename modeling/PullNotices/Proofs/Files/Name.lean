import PullNotices.Files.Name
import PullNotices.Proofs.Text.Search

/-! What keeps a path from the file system, told by its text: the first stray surrogate and the surrogates
that follow on it, or else a null. -/
namespace PullNotices.PathFlaw

/-- The text has this flaw. -/
inductive Spoils : PathFlaw → Text → Prop
  | surrogates {t before run rest : Text} {first : CodePoint} (shown : t = before ++ first :: (run ++ rest))
      (earlier : ∀ c ∈ before, c.isStray = false) (stray : first.isStray = true)
      (follow : ∀ c ∈ run, c.isSurrogate = true) (stop : ∀ c ∈ rest.head?, c.isSurrogate = false) :
      Spoils (.surrogates first before.length (1 + run.length)) t
  | null {t : Text} (usable : ∀ c ∈ t, c.isStray = false) (null : CodePoint.ofChar '\x00' ∈ t) : Spoils .null t

theorem ofText?_eq_some_iff {t : Text} {flaw : PathFlaw} : ofText? t = some flaw ↔ flaw.Spoils t := by
  unfold ofText?
  constructor
  · intro found
    split at found
    · rename_i first behind here
      cases found
      have shown : t = t.takeWhile (fun c => !c.isStray) ++ first ::
          (behind.takeWhile CodePoint.isSurrogate ++ behind.dropWhile CodePoint.isSurrogate) := by
        rw [List.takeWhile_append_dropWhile,← here,List.takeWhile_append_dropWhile]
      refine .surrogates shown ?_ ?_ (fun c => List.mem_takeWhile_imp) ?_
      · intro c member
        simpa using List.mem_takeWhile_imp member
      · have stopped := List.head?_dropWhile_not (fun c : CodePoint => !c.isStray) t
        rw [here] at stopped
        simpa using stopped
      · intro c member
        have stopped := List.head?_dropWhile_not CodePoint.isSurrogate behind
        rw [member] at stopped
        exact stopped
    · rename_i usable
      split at found
      · rename_i null
        cases found
        refine .null (fun c member => ?_) (List.contains_iff_mem.mp null)
        simpa using List.dropWhile_eq_nil_iff.mp usable c member
      · cases found
  · intro spoils
    cases spoils with
    | @surrogates _ before run rest first shown earlier stray follow stop =>
      have front : (before ++ first :: (run ++ rest)).span (fun c => !c.isStray) = (before,first :: (run ++ rest)) :=
        span_append_stop (by simpa using earlier) (by simpa using stray)
      have back := span_append_stop follow stop
      rw [List.span_eq_takeWhile_dropWhile] at front back
      obtain ⟨kept,dropped⟩ := Prod.mk.inj front
      rw [shown,dropped]
      dsimp only
      rw [kept,(Prod.mk.inj back).1]
    | null usable null =>
      have all : t.dropWhile (fun c => !c.isStray) = [] := List.dropWhile_eq_nil_iff.mpr (by simpa using usable)
      rw [all]
      exact if_pos (List.contains_iff_mem.mpr null)

end PullNotices.PathFlaw
