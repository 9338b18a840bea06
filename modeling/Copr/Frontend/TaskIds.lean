import Copr.Frontend.Operations
import Copr.Lib.Text

/-!
# Task ids name tasks

The task id of a source build is the id of the build, the one of a build chroot has the name of
the mock chroot behind a dash. No two tasks of a database with its keys have one task id.
-/

namespace Copr

open Text

/-- The digits of a build id. -/
theorem digit_of_mem_id {n : Nat} {c : Char} (member : c ∈ (toString n).toList) :
    c.isDigit = true := by
  have digits : (toString n).toList = Nat.toDigits 10 n := by simp
  exact Nat.isDigit_of_mem_toDigits (by decide) (by decide) (digits ▸ member)

/-- The task ids of two build chroots are the same only if builds and chroots are. -/
theorem chrootTaskId_inj {a b : Build} {c d : BuildChroot}
    (same : a.chrootTaskId c = b.chrootTaskId d) : a.id = b.id ∧ c.name = d.name := by
  have dash : ∀ n : Nat, '-' ∉ (toString n).toList :=
    fun n member => absurd (digit_of_mem_id member) (by decide)
  have texts := congrArg String.toList same
  simp only [Build.chrootTaskId, String.toList_append, List.append_assoc] at texts
  obtain ⟨ids, names⟩ := around_separator (dash a.id) (dash b.id) texts
  exact ⟨toString_nat_inj (String.toList_inj.mp ids), String.toList_inj.mp names⟩

/-- The task id of a build chroot is not a build id. -/
theorem toString_ne_chrootTaskId (id : Nat) (b : Build) (c : BuildChroot) :
    toString id ≠ b.chrootTaskId c := by
  intro same
  have member : '-' ∈ (toString id).toList := by
    rw [same, Build.chrootTaskId, String.toList_append, String.toList_append]
    exact List.mem_append_left _ (List.mem_append_right _ List.mem_cons_self)
  exact absurd (digit_of_mem_id member) (by decide)

namespace Build

variable {a b : Build} {what : String}

/-- The task ids of a build. -/
def taskIds (b : Build) : List String := b.taskId :: b.buildChroots.map b.chrootTaskId

/-- The tasks of a build have different ids. -/
theorem taskIds_nodup (distinct : b.Distinct) : b.taskIds.Nodup := by
  refine List.nodup_cons.mpr ⟨fun listed => ?_, ?_⟩
  · obtain ⟨c, -, same⟩ := List.mem_map.mp listed
    exact toString_ne_chrootTaskId b.id b c same.symm
  · refine List.pairwise_map.mpr ((List.pairwise_map.mp distinct).imp ?_)
    intro c d differ same
    exact differ (chrootTaskId_inj same).2

/-- A task id tells the build. -/
theorem id_eq_of_mem_taskIds (first : what ∈ a.taskIds) (second : what ∈ b.taskIds) :
    a.id = b.id := by
  rcases List.mem_cons.mp first with source | chroot
  · rcases List.mem_cons.mp second with source' | chroot'
    · exact toString_nat_inj (source.symm.trans source')
    · obtain ⟨d, -, same⟩ := List.mem_map.mp chroot'
      exact absurd (source.symm.trans same.symm) (toString_ne_chrootTaskId a.id b d)
  · obtain ⟨c, -, rfl⟩ := List.mem_map.mp chroot
    rcases List.mem_cons.mp second with source' | chroot'
    · exact absurd source'.symm (toString_ne_chrootTaskId b.id a c)
    · obtain ⟨d, -, same⟩ := List.mem_map.mp chroot'
      exact (chrootTaskId_inj same.symm).1

end Build

/-- The tasks of a database with its keys have different ids. -/
theorem Database.taskIds_nodup {db : Database} (ids : db.IdsKnown)
    (chroots : ∀ b ∈ db.builds, b.Distinct) : (db.builds.flatMap Build.taskIds).Nodup := by
  rw [List.nodup_flatMap]
  refine ⟨fun b member => Build.taskIds_nodup (chroots b member), ?_⟩
  refine (List.pairwise_map.mp ids.distinct).imp ?_
  intro a b differ what first second
  exact differ (Build.id_eq_of_mem_taskIds first second)

end Copr
