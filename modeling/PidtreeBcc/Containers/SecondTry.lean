import PidtreeBcc.Containers.Lookups

/-!
# SecondTry — the lookup of a container that has no process yet

`get_container_mntns_id` sleeps and tries again when the container's main process is still 0.  The second
try asks `inspect_container` again, which is memoised under the same container, so it sees process 0 again
and reads the namespace of that process.
-/

namespace PidtreeBcc

open Support

namespace Containers

/-- A container whose lookup was never asked for, with process 0 when it is inspected first, and with a
process in namespace `ns` by the time of the second try. -/
structure LateProcess (now later : Snapshot) (sha : String) (caches : Caches) (ns : NsId) : Prop where
  first : ∃ data, (inspectContainer now sha caches).1 = .ok data ∧ data.pid = some 0
  fresh : ∀ secondTry, caches.mntns.get? (sha, secondTry) = none
  process : ∃ data pid, later.inspect later.client sha = .ok data ∧ data.pid = some pid ∧ 0 < pid ∧
    later.mntnsInode pid = some ns

section Memo

variable {now later : Snapshot} {sha : String} {caches : Caches}

theorem memoMntnsId_of_miss {key : String × Bool} (compute : Caches → Option NsId × Caches)
    (h : caches.mntns.get? key = none) :
    memoMntnsId key compute caches = ((compute caches).1,
      { (compute caches).2 with mntns := (compute caches).2.mntns.store key (compute caches).1 }) := by
  simp only [memoMntnsId, h]

theorem inspectContainer_mntns : (inspectContainer now sha caches).2.mntns = caches.mntns := by
  unfold inspectContainer
  cases hget : caches.inspect.get? sha with
  | some data => rfl
  | none =>
      cases hinspect : now.inspect (detectContainerizerClient now caches).1 sha with
      | error err =>
          simp only [hinspect]
          rfl
      | ok data =>
          simp only [hinspect]
          rfl

/-- A cached inspection answers for the runtime. -/
theorem inspectContainer_of_hit {data : InspectData} (h : caches.inspect.get? sha = some data) :
    (inspectContainer now sha caches).1 = .ok data := by
  simp [inspectContainer, h]

/-- The second try reads the namespace of the process that the first one saw. -/
theorem getContainerMntnsIdAgain_of_hit {data : InspectData}
    (hinspect : caches.inspect.get? sha = some data)
    (hfresh : caches.mntns.get? (sha, true) = none) :
    (getContainerMntnsIdAgain later sha caches).1 = data.pid.bind later.mntnsInode := by
  unfold getContainerMntnsIdAgain
  rw [memoMntnsId_of_miss _ hfresh]
  have hdata : (inspectContainer later sha caches).1 = .ok data := inspectContainer_of_hit hinspect
  simp [hdata]

/-- What a first lookup of a container without a process returns: the namespace of process 0. -/
theorem getContainerMntnsId_of_late {ns : NsId} (h : LateProcess now later sha caches ns) :
    (getContainerMntnsId now later sha caches).1 = later.mntnsInode 0 := by
  rcases h.first with ⟨data, hdata, hpid⟩
  have hcached := inspectContainer_cached hdata
  have hfresh : (inspectContainer now sha caches).2.mntns.get? (sha, true) = none := by
    rw [inspectContainer_mntns]
    exact h.fresh true
  have hagain : (getContainerMntnsIdAgain later sha (inspectContainer now sha caches).2).1 =
      data.pid.bind later.mntnsInode := getContainerMntnsIdAgain_of_hit hcached hfresh
  rw [hpid, Option.bind_some] at hagain
  unfold getContainerMntnsId
  rw [memoMntnsId_of_miss _ (h.fresh false)]
  simpa [hdata, hpid] using hagain

/-- The answer is remembered for the next lookups. -/
theorem getContainerMntnsId_remembered (hfresh : caches.mntns.get? (sha, false) = none) :
    (getContainerMntnsId now later sha caches).2.mntns.get? (sha, false) =
      some (getContainerMntnsId now later sha caches).1 := by
  unfold getContainerMntnsId
  rw [memoMntnsId_of_miss _ hfresh]
  exact LruCache.get?_store_self (by decide) _ _ _

end Memo

/-- There is no `/proc/0`. -/
def Snapshot.NoProcessZero (w : Snapshot) : Prop := w.mntnsInode 0 = none

/-- Whatever the caches hold, the second try never finds the namespace of the new process. -/
theorem second_try_never_works {now later : Snapshot} {sha : String} {caches : Caches} {ns : NsId}
    (h : LateProcess now later sha caches ns) (hproc : later.NoProcessZero) :
    (getContainerMntnsId now later sha caches).1 ≠ some ns := by
  rw [getContainerMntnsId_of_late h, hproc]
  exact fun hEq => by cases hEq

/-! ### A container that gets process 100 between the two tries -/

namespace Example

def starting : InspectData := { web with pid := some 0 }

end Example

theorem late_process :
    LateProcess (Example.runtime (.ok Example.starting)) (Example.runtime (.ok Example.web)) "c1" .init
      10 :=
  ⟨⟨Example.starting, by decide +kernel, rfl⟩, fun _ => rfl, Example.web, 100, rfl, rfl, by decide, rfl⟩

theorem second_try_of_started_container :
    (getContainerMntnsId (Example.runtime (.ok Example.starting)) (Example.runtime (.ok Example.web))
      "c1" .init).1 ≠ some 10 :=
  second_try_never_works late_process rfl

/-- No namespace is found, and the next lookup inspects nothing and finds none either. -/
theorem second_try_in_vain :
    LateProcess (Example.runtime (.ok Example.starting)) (Example.runtime (.ok Example.web)) "c1" .init
        10 ∧
      (getContainerMntnsId (Example.runtime (.ok Example.starting)) (Example.runtime (.ok Example.web))
        "c1" .init).1 = none ∧
      (getContainerMntnsId (Example.runtime (.ok Example.web)) (Example.runtime (.ok Example.web)) "c1"
        (getContainerMntnsId (Example.runtime (.ok Example.starting))
          (Example.runtime (.ok Example.web)) "c1" .init).2).1 = none :=
  ⟨late_process, by decide +kernel, by decide +kernel⟩

end Containers

end PidtreeBcc
