import Glopfile.Client.Downloader

/-!
# The request loop

A request loop that runs with the file at `received` asks for the bytes from
`requested_offset` up to `windowEnd`, in chunks, as long as its sends succeed. `reach` is
where it leaves `requested_offset`.
-/

namespace Glopfile.Client

def windowEnd (total received : ℕ) : ℕ := min total (received + maxP2pInflightDataLen)

/-- The offset reached from `requested`: the end of the window, or as many chunks on as the
channel accepts requests. -/
def reach (total received requested : ℕ) : Option ℕ → ℕ
  | none => max requested (windowEnd total received)
  | some sends => min (max requested (windowEnd total received)) (requested + sends * chunkSize)

namespace DownloadState
variable {s : DownloadState} {received fuel : ℕ} {sends : Option ℕ}

theorem reach_le (total received requested : ℕ) (sends : Option ℕ) :
    reach total received requested sends ≤ max requested (windowEnd total received) := by
  cases sends with
  | none => exact Nat.le_refl _
  | some sends => exact Nat.min_le_left _ _

theorem le_reach (total received requested : ℕ) (sends : Option ℕ) :
    requested ≤ reach total received requested sends := by
  cases sends with
  | none => exact Nat.le_max_left _ _
  | some sends => exact Nat.le_min.mpr ⟨Nat.le_max_left _ _, Nat.le_add_right _ _⟩

theorem nextDataRequest_eq (hle : received ≤ s.requestedOffset) :
    s.nextDataRequest received = .ok (if s.requestedOffset < windowEnd s.totalLen received then
      some ⟨s.requestedOffset,
        min (windowEnd s.totalLen received - s.requestedOffset) chunkSize⟩
    else none) := by
  have hlen : min (min (maxP2pInflightDataLen - (s.requestedOffset - received))
      (s.totalLen - s.requestedOffset)) chunkSize =
      min (windowEnd s.totalLen received - s.requestedOffset) chunkSize := by
    simp only [windowEnd, chunkSize, maxP2pInflightDataLen]
    omega
  simp only [nextDataRequest, if_neg (Nat.not_lt.mpr hle), hlen]
  congr 1
  by_cases hlt : s.requestedOffset < windowEnd s.totalLen received
  · have hne : min (windowEnd s.totalLen received - s.requestedOffset) chunkSize ≠ 0 := by
      simp only [chunkSize]
      omega
    rw [if_pos hlt, if_pos hne]
  · have heq : min (windowEnd s.totalLen received - s.requestedOffset) chunkSize = 0 := by
      omega
    rw [if_neg hlt, if_neg (not_not_intro heq)]

theorem requestData_overrun (hlt : s.requestedOffset < received) :
    requestData received (fuel + 1) s sends =
      ⟨s, sends, [], .panicked .requestedOffset⟩ := by
  simp only [requestData, nextDataRequest, if_pos hlt]

theorem requestData_reach (sends : Option ℕ) (hle : received ≤ s.requestedOffset)
    (hfuel : s.totalLen - s.requestedOffset < fuel) :
    (requestData received fuel s sends).state =
        { s with requestedOffset := reach s.totalLen received s.requestedOffset sends } ∧
      (requestData received fuel s sends).result =
        if reach s.totalLen received s.requestedOffset sends =
            max s.requestedOffset (windowEnd s.totalLen received) then .returned .continues
        else .failed .send := by
  induction fuel generalizing s sends with
  | zero => omega
  | succ fuel ih =>
    simp only [requestData, nextDataRequest_eq hle]
    by_cases hlt : s.requestedOffset < windowEnd s.totalLen received
    · rw [if_pos hlt]
      have hend : windowEnd s.totalLen received ≤ s.totalLen := Nat.min_le_left _ _
      let len := min (windowEnd s.totalLen received - s.requestedOffset) chunkSize
      have hlen : 0 < len ∧ len ≤ chunkSize ∧
          s.requestedOffset + len ≤ windowEnd s.totalLen received ∧
          (len = chunkSize ∨ s.requestedOffset + len = windowEnd s.totalLen received) := by
        simp only [len, chunkSize]
        omega
      have hmax : max (s.requestedOffset + len) (windowEnd s.totalLen received) =
          max s.requestedOffset (windowEnd s.totalLen received) := by omega
      have hnext := fun rest =>
        @ih { s with requestedOffset := s.requestedOffset + len } rest
          (Nat.le_add_right_of_le hle) (by simp only; omega)
      cases sends with
      | none =>
        simp only [trySend, Handled.after]
        obtain ⟨hstate, hresult⟩ := hnext none
        refine ⟨hstate.trans ?_, hresult.trans ?_⟩
        · simp only [reach, hmax]
        · simp only [reach, hmax]
      | some k =>
        cases k with
        | zero =>
          have hstop : reach s.totalLen received s.requestedOffset (some 0) =
              s.requestedOffset := by
            simp only [reach]
            omega
          simp only [trySend]
          rw [hstop, if_neg (by omega)]
          exact ⟨rfl, rfl⟩
        | succ k =>
          simp only [trySend, Handled.after]
          obtain ⟨hstate, hresult⟩ := hnext (some k)
          have hreach : reach s.totalLen received (s.requestedOffset + len) (some k) =
              reach s.totalLen received s.requestedOffset (some (k + 1)) := by
            simp only [reach, hmax, Nat.add_mul]
            rcases hlen.2.2.2 with hfull | hlast
            · omega
            · omega
          simp only [hreach, hmax] at hstate hresult
          exact ⟨hstate, hresult⟩
    · rw [if_neg hlt]
      have hmax : max s.requestedOffset (windowEnd s.totalLen received) = s.requestedOffset := by
        omega
      have hstop : reach s.totalLen received s.requestedOffset sends = s.requestedOffset :=
        Nat.le_antisymm (Nat.le_trans (reach_le _ _ _ _) (Nat.le_of_eq hmax)) (le_reach _ _ _ _)
      rw [hstop, hmax, if_pos rfl]
      exact ⟨rfl, rfl⟩

theorem requestData_outputs {o : Output} (h : o ∈ (requestData received fuel s sends).outputs) :
    ∃ request, o = .sent (.dataRequest request) := by
  induction fuel generalizing s sends with
  | zero => simp [requestData] at h
  | succ fuel ih =>
    simp only [requestData] at h
    cases hnext : s.nextDataRequest received with
    | error panic => simp [hnext] at h
    | ok next =>
      cases next with
      | none => simp [hnext] at h
      | some request =>
        simp only [hnext] at h
        cases hsend : trySend sends with
        | none => simp [hsend] at h
        | some rest =>
          simp only [hsend, Handled.after, List.singleton_append, List.mem_cons] at h
          rcases h with rfl | h
          · exact ⟨request, rfl⟩
          · exact ih h

theorem requestData_frame (received fuel : ℕ) (s : DownloadState) (sends : Option ℕ) :
    (requestData received fuel s sends).state.decryptedFile = s.decryptedFile ∧
      (requestData received fuel s sends).state.totalLen = s.totalLen ∧
      ((requestData received fuel s sends).result = .returned .continues ∨
        (requestData received fuel s sends).result = .failed .send ∨
        (requestData received fuel s sends).result = .panicked .requestedOffset) := by
  induction fuel generalizing s sends with
  | zero => exact ⟨rfl, rfl, .inl rfl⟩
  | succ fuel ih =>
    simp only [requestData]
    cases hnext : s.nextDataRequest received with
    | error panic =>
      cases panic with
      | requestedOffset => exact ⟨rfl, rfl, .inr (.inr rfl)⟩
      | invalidState =>
        unfold nextDataRequest at hnext
        by_cases hlt : s.requestedOffset < received
        · rw [if_pos hlt] at hnext
          cases hnext
        · rw [if_neg hlt] at hnext
          cases hnext
    | ok next =>
      cases next with
      | none => exact ⟨rfl, rfl, .inl rfl⟩
      | some request =>
        cases trySend sends with
        | none => exact ⟨rfl, rfl, .inr (.inl rfl)⟩
        | some rest => exact ih _ rest

theorem requestData_first (hle : received ≤ s.requestedOffset)
    (hlt : s.requestedOffset < windowEnd s.totalLen received) (hsends : sends ≠ some 0) :
    ∃ len, .sent (.dataRequest ⟨s.requestedOffset, len⟩) ∈
      (requestData received (fuel + 1) s sends).outputs := by
  refine ⟨min (windowEnd s.totalLen received - s.requestedOffset) chunkSize, ?_⟩
  simp only [requestData, nextDataRequest_eq hle, if_pos hlt]
  cases sends with
  | none => exact List.mem_cons_self
  | some k =>
    cases k with
    | zero => exact absurd rfl hsends
    | succ k => exact List.mem_cons_self

theorem requestData_idle (hle : received ≤ s.requestedOffset)
    (hend : windowEnd s.totalLen received ≤ s.requestedOffset) :
    requestData received (fuel + 1) s sends = ⟨s, sends, [], .returned .continues⟩ := by
  simp only [requestData, nextDataRequest_eq hle, if_neg (Nat.not_lt.mpr hend)]

theorem requestData_fuel (hle : received ≤ s.requestedOffset)
    (hfuel : s.totalLen - s.requestedOffset < fuel)
    (hresult : (requestData received fuel s sends).result = .returned .continues) :
    (requestData received fuel s sends).state.nextDataRequest received = .ok none := by
  obtain ⟨hstate, hend⟩ := requestData_reach sends hle hfuel
  have hgrows := le_reach s.totalLen received s.requestedOffset sends
  have hmax : reach s.totalLen received s.requestedOffset sends =
      max s.requestedOffset (windowEnd s.totalLen received) := by
    by_contra hne
    rw [if_neg hne, hresult] at hend
    cases hend
  rw [hstate, nextDataRequest_eq (Nat.le_trans hle hgrows), if_neg]
  simp only
  omega

end DownloadState

end Glopfile.Client
