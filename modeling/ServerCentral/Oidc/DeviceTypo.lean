import ServerCentral.Framework.Slips
import ServerCentral.Oidc.DeviceSteps

/-!
# Mistyped user codes

A mistyped code does not land on another pending request (`typo_misses`), as long
as no character of the intended input upper-cases to several letters of the
alphabet.

The proof joins three parts:

* `differsEnough` refuses equal and `Near` codes (`not_near_of_differsEnough`);
* pending codes are pairwise apart in every reachable state (`CodesApart`);
* a slip that keeps the length of the normalized input is read as the same code
  or as a `Near` one (`Slip.flatMap_near`).

The condition is needed: `toUpperCase` reads one `ß` as `SS`, so exchanging it with
its neighbour moves three letters at once (`sharp_s_lands_elsewhere`).
-/

open Framework

namespace ServerCentral.Oidc

/-! ### What `differsEnough` refuses -/

/-- The positions at which two codes differ. -/
def diffs (a b : List Char) : List ℕ :=
  (List.range a.length).filter fun i => decide (a[i]? ≠ b[i]?)

theorem mem_diffs {a b : List Char} {i : ℕ} : i ∈ diffs a b ↔ i < a.length ∧ a[i]? ≠ b[i]? := by
  simp [diffs]

theorem diffs_pairwise (a b : List Char) : (diffs a b).Pairwise (· < ·) :=
  List.pairwise_lt_range.filter _

/-- The loop collects the differing positions until it has three. -/
theorem differing_eq (a b : List Char) (is found : List ℕ) (h : found.length ≤ 2) :
    differing a b is found =
      if (found ++ is.filter fun i => decide (a[i]? ≠ b[i]?)).length > 2 then none
      else some (found ++ is.filter fun i => decide (a[i]? ≠ b[i]?)) := by
  induction is generalizing found with
  | nil =>
    rw [differing, List.filter_nil, List.append_nil, if_neg (by omega)]
  | cons i is ih =>
    by_cases h_eq : a[i]? = b[i]?
    · simpa [differing, h_eq] using ih found h
    · by_cases h_len : (found ++ [i]).length > 2
      · have h_long : (found ++ (i :: is).filter fun i => decide (a[i]? ≠ b[i]?)).length > 2 := by
          simp [h_eq] at h_len ⊢
          omega
        rw [if_pos h_long, differing, if_pos h_eq, if_pos h_len]
      · rw [differing, if_pos h_eq, if_neg h_len, ih _ (by omega)]
        simp [h_eq]

/-- `differsEnough` read off the differing positions. -/
theorem diffs_of_differsEnough {a b : List Char} (h : differsEnough a b = true) :
    2 < (diffs a b).length ∨
      ∃ i j, diffs a b = [i, j] ∧ ¬(j = i + 1 ∧ a[i]? = b[j]? ∧ a[j]? = b[i]?) := by
  have h_loop := differing_eq a b (List.range a.length) [] (by simp)
  simp only [List.nil_append] at h_loop
  by_cases h_len : 2 < (diffs a b).length
  · exact .inl h_len
  · rw [if_neg (by exact h_len)] at h_loop
    refine .inr ?_
    rw [differsEnough, h_loop] at h
    split at h
    · next h_none => exact absurd h_none (by simp)
    · next i j h_two =>
      refine ⟨i, j, Option.some.inj h_two, ?_⟩
      simpa only [Bool.not_eq_true', Bool.and_eq_false_iff, beq_eq_false_iff_ne, ne_eq,
        not_and_or, or_assoc] using h
    · exact absurd h (by simp)

/-- Positions that differ within one or two neighbouring places, the second with the
letters exchanged, are not enough. -/
theorem not_differsEnough {a b : List Char} (n : ℕ)
    (h_at : ∀ i ∈ diffs a b, i = n ∨ i = n + 1)
    (h_swap : n + 1 ∈ diffs a b → a[n]? = b[n + 1]? ∧ a[n + 1]? = b[n]?) :
    differsEnough a b ≠ true := by
  intro h
  have h_lt := diffs_pairwise a b
  rcases diffs_of_differsEnough h with h_len | ⟨i, j, h_two, h_not⟩
  · obtain ⟨i, j, k, rest, h_three⟩ : ∃ i j k rest, diffs a b = i :: j :: k :: rest := by
      match h_d : diffs a b, h_len with
      | i :: j :: k :: rest, _ => exact ⟨i, j, k, rest, rfl⟩
    rw [h_three] at h_lt h_at
    have h_i := h_at i (by simp)
    have h_j := h_at j (by simp)
    have h_k := h_at k (by simp)
    simp only [List.pairwise_cons, List.mem_cons, forall_eq_or_imp] at h_lt
    omega
  · rw [h_two] at h_lt h_at h_swap
    have h_i := h_at i (by simp)
    have h_j := h_at j (by simp)
    obtain ⟨rfl, rfl⟩ : i = n ∧ j = n + 1 := by
      simp only [List.pairwise_cons, List.mem_singleton, forall_eq] at h_lt
      omega
    exact h_not ⟨rfl, h_swap (by simp)⟩

/-- Equal codes, and codes one slip apart, do not differ enough. -/
theorem not_near_of_differsEnough {a b : List Char} (h : differsEnough a b = true) :
    a ≠ b ∧ ¬Near a b := by
  refine ⟨?_, fun h_near => ?_⟩
  · rintro rfl
    exact not_differsEnough 0 (fun i hi => absurd rfl (mem_diffs.mp hi).2)
      (fun hi => absurd rfl (mem_diffs.mp hi).2) h
  · cases h_near with
    | substitute p x y q =>
      have h_at : ∀ i ∈ diffs (p ++ x :: q) (p ++ y :: q), i = p.length := by
        intro i hi
        by_contra h_ne
        exact (mem_diffs.mp hi).2 (by grind)
      exact not_differsEnough p.length (fun i hi => .inl (h_at i hi))
        (fun hi => absurd (h_at _ hi) (by omega)) h
    | swap p x y q =>
      refine not_differsEnough p.length (fun i hi => ?_) (fun _ => ?_) h
      · by_contra h_ne
        exact (mem_diffs.mp hi).2 (by grind)
      · exact ⟨by simp, by simp⟩

/-! ### The live set -/

/-- A generated code has the fixed length and is far from every pending one. -/
theorem generateUserCode_eq_some {pending : List DeviceRequestRecord}
    {draws : ℕ → Fin userCodeLength → Fin 20} {code : List Char}
    (h : generateUserCode pending draws = some code) :
    code.length = userCodeLength ∧ ∀ r ∈ pending, differsEnough code r.userCode = true := by
  obtain ⟨attempt, -, rfl⟩ := List.mem_map.mp (List.mem_of_find?_eq_some h)
  exact ⟨by simp [spellCode], by simpa using List.find?_some h⟩

/-- Neither equal nor one length-keeping slip apart. -/
def Apart (a b : List Char) : Prop := a ≠ b ∧ ¬Near a b

theorem Apart.symm {a b : List Char} (h : Apart a b) : Apart b a :=
  ⟨h.1.symm, fun h_near => h.2 h_near.symm⟩

/-- **The invariant of the live set.** Codes have the fixed length, and the codes of
two pending requests are apart. -/
structure CodesApart (s : DeviceState) : Prop where
  length : ∀ k r, s.store.requests.get? k = some r → r.userCode.length = userCodeLength
  apart : ∀ k k' r r', s.store.requests.get? k = some r → s.store.requests.get? k' = some r' →
    r.status = .pending → r'.status = .pending → k ≠ k' → Apart r.userCode r'.userCode

/-- The invariant survives any change after which every record has the code of an old
record under the same key, and is pending only if that one was. -/
theorem CodesApart.of_le {s s' : DeviceState} (hi : CodesApart s)
    (h : ∀ k r', s'.store.requests.get? k = some r' → ∃ r, s.store.requests.get? k = some r ∧
      r'.userCode = r.userCode ∧ (r'.status = .pending → r.status = .pending)) :
    CodesApart s' := by
  constructor
  · intro k r' h_get
    obtain ⟨r, h_old, h_code, -⟩ := h k r' h_get
    exact h_code ▸ hi.length k r h_old
  · intro k₁ k₂ r₁ r₂ h_get₁ h_get₂ h_pending₁ h_pending₂ h_ne
    obtain ⟨o₁, h_old₁, h_code₁, h_status₁⟩ := h k₁ r₁ h_get₁
    obtain ⟨o₂, h_old₂, h_code₂, h_status₂⟩ := h k₂ r₂ h_get₂
    rw [h_code₁, h_code₂]
    exact hi.apart k₁ k₂ o₁ o₂ h_old₁ h_old₂ (h_status₁ h_pending₁) (h_status₂ h_pending₂) h_ne

theorem CodesApart.step {s s' : DeviceState} {x : DeviceOp × DeviceEvent} (hi : CodesApart s)
    (h : DeviceShape s s' x) : CodesApart s' := by
  cases h with
  | drops h_rows => exact hi.of_le fun k r h_get => ⟨r, h_rows k r h_get, rfl, id⟩
  | opens params draws prunedAt rec h_fresh h_mint h_clock h_client h_ip h_exp h_polled h_status
      h_code h_cap h_cap_ip h_store =>
    obtain ⟨h_len, h_far⟩ := generateUserCode_eq_some h_code
    -- what is pending after the call was compared with the new code, or is it
    have h_new : ∀ k r, k ≠ rec.deviceCode →
        s'.store.requests.get? k = some r →
        s.store.requests.get? k = some r ∧
          (r.status = .pending → Apart rec.userCode r.userCode) := by
      intro k r h_ne h_get
      rw [h_store, Table.get?_set_of_ne _ _ h_ne] at h_get
      refine ⟨(DeviceCodeStore.get?_prune.mp h_get).1, fun h_pending => ?_⟩
      exact not_near_of_differsEnough
        (h_far r (DeviceCodeStore.mem_pending.mpr ⟨⟨k, h_get⟩, h_pending⟩))
    have h_self : ∀ r, s'.store.requests.get? rec.deviceCode = some r → r = rec := by
      intro r h_get
      rw [h_store, Table.get?_set_self] at h_get
      exact (Option.some.inj h_get).symm
    constructor
    · intro k r h_get
      by_cases h_key : k = rec.deviceCode
      · subst h_key
        rw [h_self r h_get]
        exact h_len
      · exact hi.length k r (h_new k r h_key h_get).1
    · intro k₁ k₂ r₁ r₂ h_get₁ h_get₂ h_pending₁ h_pending₂ h_ne
      by_cases h_key₁ : k₁ = rec.deviceCode
      · subst h_key₁
        rw [h_self r₁ h_get₁]
        exact (h_new k₂ r₂ h_ne.symm h_get₂).2 h_pending₂
      · by_cases h_key₂ : k₂ = rec.deviceCode
        · subst h_key₂
          rw [h_self r₂ h_get₂]
          exact ((h_new k₁ r₁ h_key₁ h_get₁).2 h_pending₁).symm
        · exact hi.apart k₁ k₂ r₁ r₂ (h_new k₁ r₁ h_key₁ h_get₁).1 (h_new k₂ r₂ h_key₂ h_get₂).1
            h_pending₁ h_pending₂ h_ne
  | answers input outcome userId prunedAt approvedAt d rec h_get h_live h_status h_code h_store =>
    refine hi.of_le fun k r' h_get' => ?_
    rw [h_store, Table.get?_modify] at h_get'
    obtain ⟨r, h_pruned, rfl⟩ := Option.map_eq_some_iff.mp h_get'
    have h_old := (DeviceCodeStore.get?_prune.mp h_pruned).1
    refine ⟨r, h_old, ?_, ?_⟩
    · split <;> rfl
    · split
      · cases outcome <;> exact fun h_no => by cases h_no
      · exact id
  | touches d c t₁ t₂ t₃ rec error h_get h_clock h_store =>
    refine hi.of_le fun k r' h_get' => ?_
    rw [h_store, Table.get?_modify] at h_get'
    obtain ⟨r, h_old, rfl⟩ := Option.map_eq_some_iff.mp h_get'
    exact ⟨r, h_old, by split <;> rfl, by split <;> exact id⟩
  | collects d c t₁ t₂ t₃ rec userId approvedAt h_get h_client h_live h_status h_user h_at h_slow
      h_gone h_rows => exact hi.of_le fun k r h_get => ⟨r, h_rows k r h_get, rfl, id⟩

theorem CodesApart.of_run {tr : List (DeviceOp × DeviceEvent)} {s : DeviceState}
    (h : deviceMachine.Run tr s) : CodesApart s := by
  refine h.invariant (P := CodesApart) ⟨by simp [deviceMachine, DeviceState.initial], ?_⟩
    fun s l s' o hi _ hs => hi.step (DeviceState.step_shape hs).2.2.2
  simp [deviceMachine, DeviceState.initial]

/-! ### The typo guarantee -/

/-- The letters of the alphabet one typed character stands for. -/
def typedLetters (c : Char) : List Char :=
  (toUpperCase c).filter fun l => userCodeAlphabet.contains l

theorem normalizeUserCode_eq (input : List Char) :
    normalizeUserCode input = input.flatMap typedLetters := by
  rw [normalizeUserCode, List.filter_flatMap]
  rfl

/-- Two requests with the same key are the same; so a found request with the code of
a pending one is that one. -/
theorem CodesApart.unique {s : DeviceState} (hi : CodesApart s) {k k' : String}
    {r r' : DeviceRequestRecord} (h : s.store.requests.get? k = some r)
    (h' : s.store.requests.get? k' = some r') (h_pending : r.status = .pending)
    (h_pending' : r'.status = .pending)
    (h_near : r'.userCode = r.userCode ∨ Near r.userCode r'.userCode) : r' = r := by
  by_cases h_key : k = k'
  · subst h_key
    exact Option.some.inj (h'.symm.trans h)
  · have h_apart := hi.apart k k' r r' h h' h_pending h_pending' h_key
    rcases h_near with h_eq | h_near
    · exact absurd h_eq.symm h_apart.1
    · exact absurd h_near h_apart.2

/-- **A mistyped code can only miss.** In every reachable state, when an input meant
for a pending request is typed with one slip, `findPending` returns that request or
none, provided that every character of the intended input stands for at most one
letter of the alphabet. -/
theorem typo_misses {tr : List (DeviceOp × DeviceEvent)} {s : DeviceState}
    (h : deviceMachine.Run tr s) {r : DeviceRequestRecord} (h_r : r ∈ s.store.pending)
    {intended typed : List Char} (h_int : normalizeUserCode intended = r.userCode)
    (h_slip : Slip intended typed) (h_one : ∀ c ∈ intended, (typedLetters c).length ≤ 1)
    (now : ℕ) : ∀ found, (s.store.findPending typed now).2 = some found → found = r := by
  intro found h_found
  have hi := CodesApart.of_run h
  obtain ⟨⟨k, h_get⟩, h_pending⟩ := DeviceCodeStore.mem_pending.mp h_r
  obtain ⟨⟨k', _⟩, h_entry, rfl⟩ := Option.map_eq_some_iff.mp h_found
  obtain ⟨h_get', h_code, h_pending', h_len⟩ := DeviceCodeStore.pendingEntry_eq_some h_entry
  have h_get' := (DeviceCodeStore.get?_prune.mp h_get').1
  have h_near := h_slip.flatMap_near h_one (by
    rw [← normalizeUserCode_eq, ← normalizeUserCode_eq, h_len, h_int, hi.length k r h_get])
  rw [← normalizeUserCode_eq, ← normalizeUserCode_eq, h_int, ← h_code] at h_near
  exact hi.unique h_get h_get' h_pending h_pending' h_near

/-- A request whose eight letters are drawn from the alphabet at the given places. -/
def requestDrawing (deviceCode : String) (places : List (Fin 20)) : DeviceOp :=
  .request ⟨"tv", "openid", none, none⟩ deviceCode (fun _ i => places.getD i firstPlace) 0 0

/-- The record `requestDrawing` opens. -/
def drawnRequest (deviceCode userCode : String) : DeviceRequestRecord :=
  ⟨deviceCode, userCode.toList, "tv", "openid", none, none, 0, deviceTtlMs, .pending, none, none, 0⟩

/-- `BCDFGHJK` typed in lower case with its first two letters exchanged. -/
theorem typo_misses_swapped : ∃ tr s, deviceMachine.exec deviceMachine.init
      [requestDrawing "d" [0, 1, 2, 3, 4, 5, 6, 7]] = some (tr, s) ∧
    ∀ found, (s.store.findPending "cbdf-ghjk".toList 0).2 = some found →
      found = drawnRequest "d" "BCDFGHJK" := by
  have h_one : ("bcdf-ghjk".toList.all fun c => (typedLetters c).length ≤ 1) = true := rfl
  have h_int : normalizeUserCode "bcdf-ghjk".toList = "BCDFGHJK".toList := rfl
  exact ⟨_, _, rfl, typo_misses
    (Machine.run_of_exec [requestDrawing "d" [0, 1, 2, 3, 4, 5, 6, 7]] rfl) (by decide) h_int
    (.swap [] 'b' 'c' "df-ghjk".toList)
    (fun c hc => of_decide_eq_true (List.all_eq_true.mp h_one c hc)) 0⟩

/-- Two pending codes may be `SSBCDFGH` and `BSSCDFGH`: they differ in two places that
are not neighbours. Who types the first one as `ßBCDFGH` and exchanges two neighbours
types the second one. -/
theorem sharp_s_lands_elsewhere : ∃ tr s r found, deviceMachine.Run tr s ∧ r ∈ s.store.pending ∧
    normalizeUserCode "ßBCDFGH".toList = r.userCode ∧
    Slip "ßBCDFGH".toList "BßCDFGH".toList ∧ s.clock ≤ 1 ∧ 1 ≤ r.expiresAt ∧
    (s.store.findPending "BßCDFGH".toList 1).2 = some found ∧ found ≠ r := by
  refine ⟨_, _, drawnRequest "d" "SSBCDFGH", drawnRequest "e" "BSSCDFGH", Machine.run_of_exec
    [requestDrawing "d" [14, 14, 0, 1, 2, 3, 4, 5], requestDrawing "e" [0, 14, 14, 1, 2, 3, 4, 5]]
    rfl, ?_, ?_, .swap [] 'ß' 'B' "CDFGH".toList, ?_, ?_, ?_, ?_⟩
  all_goals decide

end ServerCentral.Oidc
