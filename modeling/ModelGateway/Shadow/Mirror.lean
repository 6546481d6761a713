import ModelGateway.Core.Snapshot

namespace ModelGateway.Shadow

open List

structure Request where
  requestMeta : RequestMeta
  body : Str
  tenant : Str
  principal : Str
  tier : Str
  snapshotVersion : Nat
  budgetIDs : List Str
  deriving DecidableEq, Repr

structure Job where
  deployment : Deployment
  request : Request
  deriving DecidableEq, Repr

structure Mirrored where
  jobs : List Job
  dropped : Nat

def sampled (draw : ℚ) (adapter : Deployment) : Bool :=
  draw * 100 < adapter.shadowPercent

def send (draw : Nat → ℚ) (room : Nat → Bool) (snap : Snapshot) (served : Deployment)
    (req : Request) : Mirrored :=
  if served.key.isAdapter then
    ⟨[], 0⟩
  else
    let picked := (snap.shadows served.key.baseModel).zipIdx.filter fun a => sampled (draw a.2) a.1
    ⟨(picked.filter fun a => room a.2).map fun a => ⟨a.1, req⟩, picked.countP fun a => !room a.2⟩

theorem mem_send_jobs {draw : Nat → ℚ} {room : Nat → Bool} {snap : Snapshot} {served : Deployment}
    {req : Request} {job : Job} (h : job ∈ (send draw room snap served req).jobs)
    : served.key.isAdapter = false ∧ job.deployment ∈ snap.shadows served.key.baseModel ∧
      (∃ j, sampled (draw j) job.deployment) ∧ job.request = req := by
  unfold send at h
  split at h
  . simp at h
  . next hserved =>
    simp only [mem_map, mem_filter] at h
    rcases h with ⟨a, ⟨⟨ha, hsampled⟩, _⟩, hjob⟩
    subst hjob
    exact ⟨by simpa using hserved, fst_mem_of_mem_zipIdx ha, ⟨a.2, hsampled⟩, rfl⟩

theorem shadowPercent_pos_of_sampled {draw : ℚ} {adapter : Deployment} (hdraw : 0 ≤ draw)
    (h : sampled draw adapter)
    : 0 < adapter.shadowPercent := by
  unfold sampled at h
  rw [decide_eq_true_iff] at h
  have : (0 : ℚ) < adapter.shadowPercent := lt_of_le_of_lt (by positivity) h
  apply Nat.cast_pos.mp this

theorem send_jobs_of_zero {snap : Snapshot} {served : Deployment} (req : Request)
    (hserved : served.key.isAdapter = false) {adapter : Deployment}
    (hmem : adapter ∈ snap.shadows served.key.baseModel) (hpercent : 0 < adapter.shadowPercent)
    : ⟨adapter, req⟩ ∈ (send (fun _ => 0) (fun _ => true) snap served req).jobs := by
  rcases mem_iff_getElem.mp hmem with ⟨j, hj, hadapter⟩
  simp only [send, hserved, Bool.false_eq_true, if_false, mem_map, mem_filter]
  refine ⟨(adapter, j), ⟨⟨?_, ?_⟩, trivial⟩, rfl⟩
  . rw [mem_zipIdx_iff_getElem?]
    rw [getElem?_eq_getElem hj, hadapter]
  . have : (0 : ℚ) < adapter.shadowPercent := Nat.cast_pos.mpr hpercent
    simpa [sampled] using this

end ModelGateway.Shadow
