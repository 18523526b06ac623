import ServerCentral.Binaries.Store

/-!
# Only verified binaries

What the store writes was fetched together with checksums that list its digest, in one download
(`writes_verified`). As long as nobody else writes into the cache, what a call is answered with is
a file of `dist/`, or a file of the cache that was verified for the platform and version the call
asked for (`served_verified`).

A platform and version have one download at a time, and a call is answered once (`one_download`).
-/

open Framework

namespace ServerCentral.Binaries

variable {rt : Runtime}

/-! ### What a trace says -/

/-- The call `c` asked for a binary. -/
def Asks (tr : StoreTrace) (c : ℕ) (platform : Platform) (version : String) : Prop :=
  ∃ name o, (.resolve c name version, o) ∈ tr ∧
    isSupported (normalizePlatform name) = some platform

/-- The download `j` was started, -/
def Started (tr : StoreTrace) (j : ℕ) (platform : Platform) (version : String) : Prop :=
  ∃ e ∈ tr, e.2.started = some (j, platform, version)

/-- and has fetched a file. -/
def Fetched (tr : StoreTrace) (j : ℕ) (part : Part) (bytes : Bytes) : Prop :=
  ∃ status o, 200 ≤ status ∧ status ≤ 299 ∧
    (.fetched j part (.answered status (.ok bytes)), o) ∈ tr

/-- A download of the platform and version has fetched the binary, and checksums that list the
digest of the binary under the name of its asset. -/
def Verified (rt : Runtime) (tr : StoreTrace) (platform : Platform) (version : String)
    (binary : Bytes) : Prop :=
  ∃ j sums, Started tr j platform version ∧ Fetched tr j .binary binary ∧ Fetched tr j .sums sums ∧
    (parseChecksums (rt.decode sums)).get? (assetName platform).toList = some (rt.sha256 binary)

section Mono

variable {tr tr' : StoreTrace} {platform : Platform} {version : String} {j c : ℕ} {part : Part}
  {bytes : Bytes}

theorem Asks.mono (h : Asks tr c platform version) (h_sub : tr ⊆ tr') :
    Asks tr' c platform version := by
  obtain ⟨name, o, h_mem, h_name⟩ := h
  exact ⟨name, o, h_sub h_mem, h_name⟩

theorem Started.mono (h : Started tr j platform version) (h_sub : tr ⊆ tr') :
    Started tr' j platform version := by
  obtain ⟨e, h_mem, h_e⟩ := h
  exact ⟨e, h_sub h_mem, h_e⟩

theorem Fetched.mono (h : Fetched tr j part bytes) (h_sub : tr ⊆ tr') :
    Fetched tr' j part bytes := by
  obtain ⟨status, o, h_low, h_high, h_mem⟩ := h
  exact ⟨status, o, h_low, h_high, h_sub h_mem⟩

theorem Verified.mono (h : Verified rt tr platform version bytes) (h_sub : tr ⊆ tr') :
    Verified rt tr' platform version bytes := by
  obtain ⟨j, sums, h_started, h_binary, h_sums, h_listed⟩ := h
  exact ⟨j, sums, h_started.mono h_sub, h_binary.mono h_sub, h_sums.mono h_sub, h_listed⟩

end Mono

/-! ### The invariant -/

/-- What a download has fetched so far, and what it is about to write. -/
structure Download.Sound (rt : Runtime) (tr : StoreTrace) (j : ℕ) (d : Download) : Prop where
  started : Started tr j d.platform d.version
  binary : ∀ base bytes sums, d.stage = .fetching base (some bytes) sums →
    Fetched tr j .binary bytes
  sums : ∀ base binary bytes, d.stage = .fetching base binary (some bytes) →
    Fetched tr j .sums bytes
  writing : ∀ bytes, d.stage = .writing bytes → Verified rt tr d.platform d.version bytes

structure StoreInv (rt : Runtime) (tr : StoreTrace) (s : BinaryStore) : Prop where
  shared : Flights.Shared s.flights
  keyed : ∀ j k d, s.flights.work.get? j = some (k, d) → k = flightKey d.platform d.version
  sound : ∀ j k d, s.flights.work.get? j = some (k, d) → d.Sound rt tr j
  calls : ∀ c call, s.calls.get? c = some call → Asks tr c call.platform call.version
  waiting : ∀ c j, s.flights.waiting.get? c = some j →
    ∃ k d, s.flights.work.get? j = some (k, d) ∧ Asks tr c d.platform d.version

section Steps

variable {tr tr' : StoreTrace} {s : BinaryStore} {j c : ℕ} {k : String} {d : Download}

theorem Download.Sound.mono (h : d.Sound rt tr j) (h_sub : tr ⊆ tr') : d.Sound rt tr' j where
  started := h.started.mono h_sub
  binary base bytes sums h_stage := (h.binary base bytes sums h_stage).mono h_sub
  sums base binary bytes h_stage := (h.sums base binary bytes h_stage).mono h_sub
  writing bytes h_stage := (h.writing bytes h_stage).mono h_sub

theorem StoreInv.mono (h : StoreInv rt tr s) (h_sub : tr ⊆ tr') : StoreInv rt tr' s where
  shared := h.shared
  keyed := h.keyed
  sound j k d h_work := (h.sound j k d h_work).mono h_sub
  calls c call h_call := (h.calls c call h_call).mono h_sub
  waiting c j h_wait := by
    obtain ⟨k, d, h_work, h_asks⟩ := h.waiting c j h_wait
    exact ⟨k, d, h_work, h_asks.mono h_sub⟩

/-- The files are nobody's concern here. -/
theorem StoreInv.files (h : StoreInv rt tr s) (files : Table StoreFile Bytes) :
    StoreInv rt tr { s with files } :=
  ⟨h.shared, h.keyed, h.sound, h.calls, h.waiting⟩

theorem StoreInv.finish (h : StoreInv rt tr s) (h_work : s.flights.work.get? j = some (k, d))
    (result : Except ResolveError StoreFile) : StoreInv rt tr (s.finish j result).1 where
  shared := h.shared.settle j
  keyed i k' d' h_i := h.keyed i k' d' ((Flights.work_settle h_work).mp h_i).1
  sound i k' d' h_i := h.sound i k' d' ((Flights.work_settle h_work).mp h_i).1
  calls := h.calls
  waiting c i h_wait := by
    -- those who waited for `j` are answered; the others wait for another download
    obtain ⟨h_old, h_ne⟩ := (Flights.waiting_settle h_work).mp h_wait
    obtain ⟨k', d', h_i, h_asks⟩ := h.waiting c i h_old
    exact ⟨k', d', (Flights.work_settle h_work).mpr ⟨h_i, h_ne⟩, h_asks⟩

theorem StoreInv.goOn (h : StoreInv rt tr s) (h_work : s.flights.work.get? j = some (k, d))
    {stage : Stage} (h_sound : ({ d with stage } : Download).Sound rt tr j) :
    StoreInv rt tr (s.goOn j d stage).1 where
  shared := h.shared.advance j _
  keyed i k' d' h_i := by
    obtain ⟨rfl, rfl, rfl⟩ | ⟨-, h_old⟩ := (Flights.work_advance h_work).mp h_i
    · exact h.keyed i k' d h_work
    · exact h.keyed i k' d' h_old
  sound i k' d' h_i := by
    obtain ⟨rfl, rfl, rfl⟩ | ⟨-, h_old⟩ := (Flights.work_advance h_work).mp h_i
    · exact h_sound
    · exact h.sound i k' d' h_old
  calls := h.calls
  waiting c i h_wait := by
    obtain ⟨k', d', h_i, h_asks⟩ := h.waiting c i h_wait
    -- the download goes on for the same platform and version
    by_cases h_ij : i = j
    · subst h_ij
      obtain ⟨rfl, rfl⟩ := Prod.mk.inj (Option.some.inj (h_i.symm.trans h_work))
      exact ⟨k', _, (Flights.work_advance h_work).mpr (.inl ⟨rfl, rfl, rfl⟩), h_asks⟩
    · exact ⟨k', d', (Flights.work_advance h_work).mpr (.inr ⟨h_ij, h_i⟩), h_asks⟩

end Steps

/-! ### The cases of a step -/

/-- How a download goes on. -/
inductive Next (rt : Runtime) (j : ℕ) : StoreLabel → Download → Stage → Prop
  | directory {p v} :
    Next rt j (.directoryMade j (.ok ())) ⟨p, v, .directory⟩ .config
  | config {p v cfg} :
    Next rt j (.configRead j (.ok cfg)) ⟨p, v, .config⟩ (.fetching (tagBase cfg v) none none)
  | binary {p v base sums status bytes} (h_low : 200 ≤ status) (h_high : status ≤ 299) :
    Next rt j (.fetched j .binary (.answered status (.ok bytes)))
      ⟨p, v, .fetching base none sums⟩ (.fetching base (some bytes) sums)
  | sums {p v base binary status bytes} (h_low : 200 ≤ status) (h_high : status ≤ 299) :
    Next rt j (.fetched j .sums (.answered status (.ok bytes)))
      ⟨p, v, .fetching base binary none⟩ (.fetching base binary (some bytes))
  | verified {l p v stage base bytes sums}
    -- Both files are there, one of them only now.
    (h_last : Next rt j l ⟨p, v, stage⟩ (.fetching base (some bytes) (some sums)))
    (h_verify : verify rt p v bytes sums = .ok ()) :
    Next rt j l ⟨p, v, stage⟩ (.writing bytes)

/-- The labels that a download takes. -/
def StoreLabel.OfDownload : StoreLabel → Prop
  | .directoryMade .. | .configRead .. | .fetched .. | .written .. => True
  | _ => False

theorem Next.ofDownload {j : ℕ} {l : StoreLabel} {d : Download} {stage : Stage}
    (h : Next rt j l d stage) : l.OfDownload := by
  induction h with
  | verified _ _ ih => exact ih
  | _ => trivial

/-- What a step can do. -/
inductive Moves (rt : Runtime) (s : BinaryStore) : StoreLabel → BinaryStore × StoreOut → Prop
  | refused {c name version} (h_fresh : c ∉ s.asked)
    (h_name : isSupported (normalizePlatform name) = none) :
    Moves rt s (.resolve c name version) ({ s with asked := c :: s.asked },
      { answers := [(c, .error (unsupported rt (normalizePlatform name)))] })
  | asked {c name version p} (h_fresh : c ∉ s.asked)
    (h_name : isSupported (normalizePlatform name) = some p) :
    Moves rt s (.resolve c name version)
      ({ s with asked := c :: s.asked, calls := s.calls.set c ⟨p, version, .cached⟩ }, {})
  | hit {c call} (h_call : s.calls.get? c = some call) (h_file : s.files.has call.file = true) :
    Moves rt s (.looked c)
      ({ s with calls := s.calls.erase c }, { answers := [(c, .ok call.file)] })
  | missed {c call} (h_call : s.calls.get? c = some call) :
    Moves rt s (.looked c) (s.missed c call)
  | failed {l j k d e} (h_work : s.flights.work.get? j = some (k, d)) (h_l : l.OfDownload) :
    Moves rt s l (s.finish j (.error e))
  | wentOn {l j k d stage} (h_work : s.flights.work.get? j = some (k, d))
    (h_next : Next rt j l d stage) : Moves rt s l (s.goOn j d stage)
  | written {j k p v bytes} (h_work : s.flights.work.get? j = some (k, ⟨p, v, .writing bytes⟩)) :
    Moves rt s (.written j (.ok ()))
      (({ s with files := s.files.set (.cache (cacheName p v)) bytes }.finish j
          (.ok (.cache (cacheName p v)))).1,
        { (s.finish j (.ok (.cache (cacheName p v)))).2 with
          wrote := some (.cache (cacheName p v), bytes) })
  | others {file content files}
    (h_files : files = s.files.erase file ∨
      ∃ bytes, content = some bytes ∧ files = s.files.set file bytes) :
    Moves rt s (.others file content) ({ s with files }, {})
  | restart :
    Moves rt s .restart ({ s with
      calls := .empty, flights := { Flights.empty with started := s.flights.started } }, {})

theorem Moves.collect {s : BinaryStore} {l : StoreLabel} {j : ℕ} {k : String} {p : Platform}
    {v base : String} {stage : Stage} (binary sums : Option Bytes)
    (h_work : s.flights.work.get? j = some (k, ⟨p, v, stage⟩)) (h_l : l.OfDownload)
    (h_next : Next rt j l ⟨p, v, stage⟩ (.fetching base binary sums)) :
    Moves rt s l (s.collect rt j ⟨p, v, stage⟩ base binary sums) := by
  cases binary with
  | none => exact .wentOn h_work h_next
  | some binary =>
    cases sums with
    | none => exact .wentOn h_work h_next
    | some sums =>
      show Moves rt s l (s.check rt j ⟨p, v, stage⟩ binary sums)
      -- both files are there: the digest is compared before anything is written
      rw [BinaryStore.check]
      cases h_verify : verify rt p v binary sums with
      | error e => exact .failed h_work h_l
      | ok u => exact .wentOn h_work (.verified h_next h_verify)

/-- A binary that was verified. -/
theorem verify_ok {p : Platform} {v : String} {binary sums : Bytes}
    (h : verify rt p v binary sums = .ok ()) :
    (parseChecksums (rt.decode sums)).get? (assetName p).toList = some (rt.sha256 binary) := by
  rw [verify] at h
  split at h
  · simp at h
  · next expected h_listed =>
    split at h
    · simp at h
    · next h_same => rw [h_listed, not_not.mp h_same]

/-- A response that was downloaded. -/
theorem download_ok {url : String} {response : Response} {bytes : Bytes}
    (h : download url response = .ok bytes) :
    ∃ status, 200 ≤ status ∧ status ≤ 299 ∧ response = .answered status (.ok bytes) := by
  cases response with
  | rejected message => simp [download] at h
  | answered status body =>
    simp only [download] at h
    -- a status outside 200 to 299 is an error, whatever the body holds
    split at h
    · next h_status =>
      cases body with
      | error message => simp [Except.mapError] at h
      | ok bytes' =>
        obtain rfl : bytes' = bytes := by simpa [Except.mapError] using h
        exact ⟨status, h_status.1, h_status.2, rfl⟩
    · simp at h

theorem step_moves {s : BinaryStore} {l : StoreLabel} {r : BinaryStore × StoreOut}
    (h : BinaryStore.step rt s l = some r) : Moves rt s l r := by
  cases l with
  | resolve c name version =>
    simp only [BinaryStore.step] at h
    split at h
    · simp at h
    next h_fresh =>
    split at h
    · next h_name =>
      obtain rfl := Option.some.inj h
      exact .refused h_fresh h_name
    · next p h_name =>
      obtain rfl := Option.some.inj h
      exact .asked h_fresh h_name
  | looked c =>
    simp only [BinaryStore.step, Option.map_eq_some_iff] at h
    obtain ⟨call, h_call, rfl⟩ := h
    split
    · next h_file => exact .hit h_call h_file
    · exact .missed h_call
  | directoryMade j result =>
    simp only [BinaryStore.step] at h
    split at h
    · next h_work =>
      cases result with
      | error message =>
        obtain rfl := Option.some.inj h
        exact .failed h_work trivial
      | ok u =>
        obtain rfl := Option.some.inj h
        exact .wentOn h_work .directory
    · simp at h
  | configRead j result =>
    simp only [BinaryStore.step] at h
    split at h
    · next h_work =>
      cases result with
      | error message =>
        obtain rfl := Option.some.inj h
        exact .failed h_work trivial
      | ok cfg =>
        obtain rfl := Option.some.inj h
        exact .wentOn h_work .config
    · simp at h
  | fetched j part response =>
    simp only [BinaryStore.step] at h
    split at h
    · next k p v base binary sums h_work =>
      cases part with
      | binary =>
        cases binary with
        | some bytes => simp at h
        | none =>
          -- one of the two fetches of `Promise.all`: a failure ends the download
          cases h_down : download (Part.binary.url base p) response with
          | error e =>
            obtain rfl : s.finish j (.error e) = r := by simpa [h_down] using h
            exact .failed h_work trivial
          | ok bytes =>
            obtain ⟨status, h_low, h_high, rfl⟩ := download_ok h_down
            obtain rfl : s.collect rt j ⟨p, v, .fetching base none sums⟩ base (some bytes) sums =
                r := by simpa [h_down] using h
            exact .collect _ _ h_work trivial (.binary h_low h_high)
      | sums =>
        cases sums with
        | some bytes => simp at h
        | none =>
          cases h_down : download (Part.sums.url base p) response with
          | error e =>
            obtain rfl : s.finish j (.error e) = r := by simpa [h_down] using h
            exact .failed h_work trivial
          | ok bytes =>
            obtain ⟨status, h_low, h_high, rfl⟩ := download_ok h_down
            obtain rfl : s.collect rt j ⟨p, v, .fetching base binary none⟩ base binary
                (some bytes) = r := by simpa [h_down] using h
            exact .collect _ _ h_work trivial (.sums h_low h_high)
    · simp at h
  | written j result =>
    simp only [BinaryStore.step] at h
    split at h
    · next h_work =>
      cases result with
      | error message =>
        obtain rfl := Option.some.inj h
        exact .failed h_work trivial
      | ok u =>
        obtain rfl := Option.some.inj h
        exact .written h_work
    · simp at h
  | others file content =>
    obtain rfl := Option.some.inj h
    cases content with
    | none => exact .others (.inl rfl)
    | some bytes => exact .others (.inr ⟨bytes, rfl, rfl⟩)
  | restart =>
    obtain rfl := Option.some.inj h
    exact .restart

/-! ### The invariant is kept -/

/-- What a download has reached is on the trace. -/
theorem Next.sound {tr : StoreTrace} {l : StoreLabel} {o : StoreOut} {j : ℕ} {d : Download}
    {stage : Stage} (h_next : Next rt j l d stage) (h : d.Sound rt tr j) :
    ({ d with stage } : Download).Sound rt (tr ++ [(l, o)]) j := by
  have h_new : (l, o) ∈ tr ++ [(l, o)] := by simp
  have h_old := h.mono (List.subset_append_left tr [(l, o)])
  induction h_next with
  | directory => exact ⟨h_old.started, by simp, by simp, by simp⟩
  | config => exact ⟨h_old.started, by simp, by simp, by simp⟩
  | binary h_low h_high =>
    refine ⟨h_old.started, ?_, ?_, by simp⟩
    · intro base bytes sums h_stage
      obtain ⟨-, rfl, -⟩ := by simpa using h_stage
      exact ⟨_, o, h_low, h_high, h_new⟩
    · intro base binary bytes h_stage
      obtain ⟨-, -, rfl⟩ := by simpa using h_stage
      exact h_old.sums _ _ _ rfl
  | sums h_low h_high =>
    refine ⟨h_old.started, ?_, ?_, by simp⟩
    · intro base bytes sums h_stage
      obtain ⟨-, rfl, -⟩ := by simpa using h_stage
      exact h_old.binary _ _ _ rfl
    · intro base binary bytes h_stage
      obtain ⟨-, -, rfl⟩ := by simpa using h_stage
      exact ⟨_, o, h_low, h_high, h_new⟩
  | @verified l p v stage base bytes sums h_last h_verify ih =>
    -- what arrived last is on the trace with this step, and the other file was before
    have h_both := ih h h_new h_old
    refine ⟨h_old.started, by simp, by simp, ?_⟩
    intro bytes' h_stage
    obtain rfl : bytes = bytes' := by simpa using h_stage
    refine ⟨j, sums, h_old.started, h_both.binary _ _ _ rfl, h_both.sums _ _ _ rfl, ?_⟩
    exact verify_ok h_verify

/-! ### Names that tell binaries apart -/

/-- The name of a platform ends at the character that is put after it. -/
theorem Platform.text_append {p p' : Platform} {x : Char} {v v' : List Char}
    (h_x : x = '@' ∨ x = '-') (h : p.text.toList ++ x :: v = p'.text.toList ++ x :: v') :
    p = p' ∧ v = v' := by
  obtain rfl | rfl := h_x <;> cases p <;> cases p' <;>
    simp [Platform.text] at h ⊢ <;> try exact h

theorem flightKey_injective {p p' : Platform} {v v' : String}
    (h : flightKey p v = flightKey p' v') : p = p' ∧ v = v' := by
  have h_list := congrArg String.toList h
  simp only [flightKey, String.toList_append, List.append_assoc] at h_list
  obtain ⟨h_p, h_v⟩ := Platform.text_append (.inl rfl) h_list
  exact ⟨h_p, String.toList_injective h_v⟩

theorem cacheName_injective {p p' : Platform} {v v' : String}
    (h : cacheName p v = cacheName p' v') : p = p' ∧ v = v' := by
  have h_list := congrArg String.toList h
  simp only [cacheName, String.toList_append, List.append_assoc] at h_list
  obtain ⟨rfl, h_v⟩ := Platform.text_append (.inr rfl) (List.append_cancel_left h_list)
  exact ⟨rfl, String.toList_injective (List.append_cancel_right h_v)⟩

/-! ### Every step keeps the invariant -/

/-- A call that has found no file waits for the download of what it asked for. -/
theorem StoreInv.missed {tr tr' : StoreTrace} {s : BinaryStore} {c : ℕ} {call : Call}
    (h : StoreInv rt tr s) (h_sub : tr ⊆ tr') (h_call : s.calls.get? c = some call)
    (h_out : ∀ j p v, (s.missed c call).2.started = some (j, p, v) → Started tr' j p v) :
    StoreInv rt tr' (s.missed c call).1 := by
  have h_asks := (h.calls c call h_call).mono h_sub
  have h := h.mono h_sub
  obtain ⟨p, v, lookup⟩ := call
  cases lookup with
  | cached =>
    refine ⟨h.shared, h.keyed, h.sound, fun c' call' h_get => ?_, h.waiting⟩
    -- not in the cache: the call looks into `dist/` next
    obtain ⟨rfl, rfl⟩ | ⟨-, h_old⟩ := Table.get?_set_eq_some h_get
    · exact h_asks
    · exact h.calls c' call' h_old
  | built =>
    -- What is under way for the key is for this platform and version.
    have h_work : ∀ j k d, (s.missed c ⟨p, v, .built⟩).1.flights.work.get? j = some (k, d) →
        s.flights.work.get? j = some (k, d) ∨
          s.flights.inflight.get? (flightKey p v) = none ∧ j = s.flights.started ∧
            k = flightKey p v ∧ d = ⟨p, v, .directory⟩ := by
      intro j k d h_get
      obtain h_old | ⟨h_none, h_j, h_eq⟩ := Flights.work_request_new h_get
      · exact .inl h_old
      · exact .inr ⟨h_none, h_j, Prod.mk.inj h_eq⟩
    constructor
    case shared => exact h.shared.request _ _ _
    case keyed =>
      intro j k d h_get
      obtain h_old | ⟨-, -, rfl, rfl⟩ := h_work j k d h_get
      · exact h.keyed j k d h_old
      · rfl
    case sound =>
      intro j k d h_get
      obtain h_old | ⟨h_none, rfl, rfl, rfl⟩ := h_work j k d h_get
      · exact h.sound j k d h_old
      · refine ⟨h_out _ _ _ ?_, by simp, by simp, by simp⟩
        simp [BinaryStore.missed, Table.has, h_none]
    case calls =>
      intro c' call' h_get
      exact h.calls c' call' (Table.get?_erase.mp h_get).1
    case waiting =>
      intro c' j h_wait
      by_cases h_c : c' = c
      · subst h_c
        have h_new : (s.flights.request (flightKey p v) ⟨p, v, .directory⟩ c').waiting.get? c' =
            some j := h_wait
        rw [Flights.waiting_request_self] at h_new
        -- the call starts a download, or joins the one of its key
        cases h_key : s.flights.inflight.get? (flightKey p v) with
        | none =>
          obtain rfl : s.flights.started = j := by simpa [h_key] using h_new
          refine ⟨flightKey p v, ⟨p, v, .directory⟩, ?_, h_asks⟩
          show (s.flights.request _ _ c').work.get? _ = _
          rw [Flights.request_start h_key]
          exact Table.get?_set_self ..
        | some i =>
          obtain rfl : i = j := by simpa [h_key] using h_new
          obtain ⟨d, h_d⟩ := (h.shared.listed _ _).mp h_key
          -- the key tells the platform and the version, so the download is for what was asked
          obtain ⟨h_p, h_v⟩ := flightKey_injective (h.keyed _ _ _ h_d)
          refine ⟨flightKey p v, d, Flights.work_request_old h.shared h_d, ?_⟩
          rw [← h_p, ← h_v]
          exact h_asks
      · have h_old : (s.flights.request (flightKey p v) ⟨p, v, .directory⟩ c).waiting.get? c' =
            some j := h_wait
        rw [Flights.waiting_request_of_ne h_c] at h_old
        obtain ⟨k, d, h_d, h_asks'⟩ := h.waiting c' j h_old
        exact ⟨k, d, Flights.work_request_old h.shared h_d, h_asks'⟩

theorem StoreInv.step {tr : StoreTrace} {s : BinaryStore} {l : StoreLabel}
    {r : BinaryStore × StoreOut} (h : StoreInv rt tr s)
    (h_step : BinaryStore.step rt s l = some r) : StoreInv rt (tr ++ [(l, r.2)]) r.1 := by
  have h_sub : tr ⊆ tr ++ [(l, r.2)] := List.subset_append_left tr [(l, r.2)]
  have h_new : (l, r.2) ∈ tr ++ [(l, r.2)] := by simp
  have h_old := h.mono h_sub
  cases step_moves h_step with
  | refused => exact ⟨h_old.shared, h_old.keyed, h_old.sound, h_old.calls, h_old.waiting⟩
  | @asked c name version p h_fresh h_name =>
    refine ⟨h_old.shared, h_old.keyed, h_old.sound, fun c' call h_get => ?_, h_old.waiting⟩
    obtain ⟨rfl, rfl⟩ | ⟨-, h_get⟩ := Table.get?_set_eq_some h_get
    · exact ⟨name, _, h_new, h_name⟩
    · exact h_old.calls c' call h_get
  | hit =>
    refine ⟨h_old.shared, h_old.keyed, h_old.sound, fun c' call h_get => ?_, h_old.waiting⟩
    exact h_old.calls c' call (Table.get?_erase.mp h_get).1
  | missed h_call =>
    exact h.missed h_sub h_call fun j p v h_started => ⟨_, h_new, h_started⟩
  | failed h_work => exact h_old.finish h_work _
  | @wentOn _ j k d _ h_work h_next => exact h_old.goOn h_work (h_next.sound (h.sound j k d h_work))
  | @written _ _ p v bytes h_work =>
    exact (h_old.files (s.files.set (.cache (cacheName p v)) bytes)).finish h_work
      (.ok (.cache (cacheName p v)))
  | others => exact h_old.files _
  | restart =>
    refine ⟨⟨?_, ?_, ?_⟩, ?_, ?_, ?_, ?_⟩ <;> simp [Flights.empty]

theorem storeInv {tr : StoreTrace} {s : BinaryStore} (h : (storeMachine rt).Run tr s) :
    StoreInv rt tr s := by
  refine Machine.RunWhen.history ?_ (fun _ _ _ _ _ _ h_inv _ h_step => h_inv.step h_step) h
  refine ⟨Flights.Shared.empty, ?_, ?_, ?_, ?_⟩ <;> simp [storeMachine, Flights.empty]

/-! ### What is written and served -/

/-- What the store writes, it has verified. -/
theorem StoreInv.wrote {tr : StoreTrace} {s : BinaryStore} {l : StoreLabel}
    {r : BinaryStore × StoreOut} {file : StoreFile} {content : Bytes} (h : StoreInv rt tr s)
    (h_step : BinaryStore.step rt s l = some r) (h_wrote : r.2.wrote = some (file, content)) :
    ∃ p v, file = .cache (cacheName p v) ∧ Verified rt tr p v content := by
  cases step_moves h_step with
  -- only this step writes, and its bytes passed `verify`
  | @written j k p v bytes h_work =>
    obtain ⟨rfl, rfl⟩ : StoreFile.cache (cacheName p v) = file ∧ bytes = content := by
      simpa using h_wrote
    exact ⟨p, v, rfl, (h.sound j k _ h_work).writing bytes rfl⟩
  | @missed c call =>
    obtain ⟨p, v, lookup⟩ := call
    cases lookup <;> simp [BinaryStore.missed] at h_wrote
  | _ => simp [BinaryStore.finish, BinaryStore.goOn] at h_wrote

/-! Two agents of one platform ask at once. -/

/-- The digest of a file without content. -/
def emptyDigest : Text :=
  "e3b0c44298fc1c149afbf4c8996fb92427ae41e4649b934ca495991b7852b855".toList

/-- A runtime for text in ASCII and files without content. -/
def plainRuntime : Runtime where
  inheritedText := id
  decode bytes := bytes.map fun b => Char.ofNat b.toNat
  sha256 _ := emptyDigest

def plainSums : Bytes :=
  (emptyDigest ++ "  sc-agent-linux-x64\n".toList).map fun c => c.toNat.toUInt8

/-- Both wait for one download, which has fetched its files. -/
def twoAgents : List StoreLabel :=
  [.resolve 0 "linux-x64" "1.2.3", .resolve 1 "linux" "1.2.3", .looked 0, .looked 1, .looked 0,
    .looked 1, .directoryMade 0 (.ok ()), .configRead 0 (.ok ⟨none, none⟩),
    .fetched 0 .sums (.answered 200 (.ok plainSums)), .fetched 0 .binary (.answered 200 (.ok []))]

def linuxFile : StoreFile := .cache "sc-agent-linux-x64-1.2.3"

/-- Someone else writes into the cache. -/
def StoreLabel.intrudes : StoreLabel → Bool
  | .others (.cache _) (some _) => true
  | _ => false

/-- The cache is the store's own. -/
abbrev CacheOwned (_ : BinaryStore) (l : StoreLabel) : Prop := l.intrudes = false

/-- What the cache holds. -/
def CacheVerified (rt : Runtime) (tr : StoreTrace) (files : Table StoreFile Bytes) : Prop :=
  ∀ name content, files.get? (.cache name) = some content →
    ∃ p v, name = cacheName p v ∧ Verified rt tr p v content

theorem CacheVerified.mono {tr tr' : StoreTrace} {files : Table StoreFile Bytes}
    (h : CacheVerified rt tr files) (h_sub : tr ⊆ tr') : CacheVerified rt tr' files := by
  intro name content h_get
  obtain ⟨p, v, h_name, h_verified⟩ := h name content h_get
  exact ⟨p, v, h_name, h_verified.mono h_sub⟩

theorem CacheVerified.set {tr : StoreTrace} {files : Table StoreFile Bytes} {file : StoreFile}
    {bytes : Bytes} (h : CacheVerified rt tr files)
    (h_file : ∀ name, file = .cache name → ∃ p v, name = cacheName p v ∧ Verified rt tr p v bytes) :
    CacheVerified rt tr (files.set file bytes) := by
  intro name content h_get
  obtain ⟨h_name, rfl⟩ | ⟨-, h_old⟩ := Table.get?_set_eq_some h_get
  · exact h_file name h_name.symm
  · exact h name content h_old

theorem CacheVerified.step {tr : StoreTrace} {s : BinaryStore} {l : StoreLabel}
    {r : BinaryStore × StoreOut} (h : CacheVerified rt tr s.files) (h_inv : StoreInv rt tr s)
    (h_ok : CacheOwned s l) (h_step : BinaryStore.step rt s l = some r) :
    CacheVerified rt tr r.1.files := by
  cases step_moves h_step with
  | @missed c call =>
    obtain ⟨p, v, lookup⟩ := call
    cases lookup <;> exact h
  | @written j k p v bytes h_work =>
    refine h.set fun name h_name => ⟨p, v, ?_, (h_inv.sound j k _ h_work).writing bytes rfl⟩
    exact (StoreFile.cache.inj h_name).symm
  | @others file content files h_files =>
    -- others may delete from the cache, and write elsewhere
    obtain rfl | ⟨bytes, rfl, rfl⟩ := h_files
    · exact fun name content h_get => h name content (Table.get?_erase.mp h_get).1
    · refine h.set fun name h_name => ?_
      subst h_name
      exact absurd h_ok (by simp [StoreLabel.intrudes])
  | _ => exact h

theorem cacheVerified {tr : StoreTrace} {s : BinaryStore}
    (h : (storeMachine rt).RunWhen CacheOwned tr s) : CacheVerified rt tr s.files := by
  refine Machine.RunWhen.history (P := fun tr s => CacheVerified rt tr s.files) ?_ ?_ h
  · intro name content h_get
    simp [storeMachine] at h_get
  · intro tr s l s' o h_run h_cache h_ok h_step
    exact (h_cache.step (storeInv h_run.run) h_ok h_step).mono (List.subset_append_left _ _)

/-- **What is served.** As long as nobody else writes into the cache: a call that is answered with
a file has asked for a platform and version, the file is there, and it is the asset of that
platform in `dist/` or the cached binary of that platform and version, whose content was
verified. -/
theorem served_verified {tr : StoreTrace} {s s' : BinaryStore} {l : StoreLabel} {o : StoreOut}
    (h_run : (storeMachine rt).RunWhen CacheOwned tr s)
    (h_step : (storeMachine rt).step s l = some (s', o)) {c : ℕ} {file : StoreFile}
    (h_answer : (c, .ok file) ∈ o.answers) :
    ∃ p v content, Asks tr c p v ∧ s'.files.get? file = some content ∧
      (file = .dist (assetName p) ∨
        file = .cache (cacheName p v) ∧ Verified rt tr p v content) := by
  have h_inv := storeInv h_run.run
  have h_cache := cacheVerified h_run
  generalize h_r : (s', o) = r at h_step
  obtain ⟨rfl, rfl⟩ : s' = r.1 ∧ o = r.2 := by simp [← h_r]
  cases step_moves h_step with
  | @hit c' call h_call h_file =>
    obtain ⟨rfl, rfl⟩ : c = c' ∧ file = call.file := by simpa using h_answer
    obtain ⟨content, h_get⟩ := Table.has_iff.mp h_file
    refine ⟨call.platform, call.version, content, h_inv.calls c call h_call, h_get, ?_⟩
    obtain ⟨p, v, lookup⟩ := call
    cases lookup with
    | built => exact .inl rfl
    | cached =>
      -- the name of a cached file tells the platform and the version it is for
      obtain ⟨p', v', h_name, h_verified⟩ := h_cache _ _ h_get
      obtain ⟨rfl, rfl⟩ := cacheName_injective h_name
      exact .inr ⟨rfl, h_verified⟩
  | @written j k p v bytes h_work =>
    obtain ⟨h_wait, rfl⟩ : c ∈ s.flights.waiters j ∧ StoreFile.cache (cacheName p v) = file := by
      simpa [BinaryStore.finish] using h_answer
    -- the waiting call asked for what the download is for
    obtain ⟨k', d, h_d, h_asks⟩ := h_inv.waiting c j (Flights.mem_waiters.mp h_wait)
    obtain ⟨rfl, rfl⟩ := Prod.mk.inj (Option.some.inj (h_d.symm.trans h_work))
    exact ⟨p, v, bytes, h_asks, Table.get?_set_self .., .inr ⟨rfl,
      (h_inv.sound j k' _ h_work).writing bytes rfl⟩⟩
  | @missed c call =>
    obtain ⟨p, v, lookup⟩ := call
    cases lookup <;> simp [BinaryStore.missed] at h_answer
  | _ => simp [BinaryStore.finish, BinaryStore.goOn] at h_answer

theorem served_verified_linux : ∃ tr s s' o p v content,
    (storeMachine plainRuntime).RunWhen CacheOwned tr s ∧
    (storeMachine plainRuntime).step s (.written 0 (.ok ())) = some (s', o) ∧
    Asks tr 1 p v ∧ s'.files.get? linuxFile = some content ∧
      (linuxFile = .dist (assetName p) ∨
        linuxFile = .cache (cacheName p v) ∧ Verified plainRuntime tr p v content) := by
  have h_exec : (((storeMachine plainRuntime).exec (storeMachine plainRuntime).init
      twoAgents).bind fun q => ((storeMachine plainRuntime).step q.2 (.written 0 (.ok ()))).map
        fun r => r.2.answers.contains (1, .ok linuxFile)) = some true := by decide +kernel
  obtain ⟨⟨tr, s⟩, h_exec, h_last⟩ := Option.bind_eq_some_iff.mp h_exec
  obtain ⟨⟨s', o⟩, h_step, h_answer⟩ := Option.map_eq_some_iff.mp h_last
  have h_run : (storeMachine plainRuntime).RunWhen CacheOwned tr s :=
    Machine.runWhen_of_exec twoAgents h_exec (by decide +kernel)
  obtain ⟨p, v, content, h_served⟩ :=
    served_verified h_run h_step (List.contains_iff_mem.mp h_answer)
  exact ⟨tr, s, s', o, p, v, content, h_run, h_step, h_served⟩

/-! ### One download, one answer -/

/-- How often a call was answered. -/
def answersTo (c : ℕ) (tr : StoreTrace) : ℕ :=
  (tr.map fun e => (e.2.answers.map Prod.fst).count c).sum

/-- Whether the store owes a call an answer. -/
def BinaryStore.owes (s : BinaryStore) (c : ℕ) : ℕ :=
  (if s.calls.has c then 1 else 0) + if s.flights.waiting.has c then 1 else 0

def BinaryStore.askedBy (s : BinaryStore) (c : ℕ) : ℕ := if c ∈ s.asked then 1 else 0

@[simp] theorem answersTo_snoc (c : ℕ) (tr : StoreTrace) (e : StoreLabel × StoreOut) :
    answersTo c (tr ++ [e]) = answersTo c tr + (e.2.answers.map Prod.fst).count c := by
  simp [answersTo]

/-- A download that ends answers those who wait for it. -/
theorem finish_owes {s : BinaryStore} {j : ℕ} {k : String} {d : Download}
    (h_work : s.flights.work.get? j = some (k, d)) (result : Except ResolveError StoreFile)
    (c : ℕ) :
    ((s.finish j result).2.answers.map Prod.fst).count c + (s.finish j result).1.owes c =
      s.owes c := by
  have h_answers : (s.finish j result).2.answers.map Prod.fst = s.flights.waiters j := by
    simp [BinaryStore.finish, List.map_map, Function.comp_def]
  -- a call waits for one download, so it goes exactly if it waited for `j`
  have h_left : (s.finish j result).1.flights.waiting.has c = true ↔
      s.flights.waiting.has c = true ∧ c ∉ s.flights.waiters j := by
    simp only [Table.has_iff, BinaryStore.finish, Flights.waiting_settle h_work,
      Flights.mem_waiters]
    constructor
    · rintro ⟨i, h_i, h_ne⟩
      refine ⟨⟨i, h_i⟩, fun h_j => h_ne ?_⟩
      exact Option.some.inj (h_i.symm.trans h_j)
    · rintro ⟨⟨i, h_i⟩, h_not⟩
      exact ⟨i, h_i, fun h_eq => h_not (h_eq ▸ h_i)⟩
  have h_calls : (s.finish j result).1.calls = s.calls := rfl
  rw [h_answers, List.Nodup.count (Flights.nodup_waiters _ _), BinaryStore.owes,
    BinaryStore.owes, h_calls]
  -- the call is answered and no longer owed, or neither changes
  by_cases h_mem : c ∈ s.flights.waiters j
  · have h_has : s.flights.waiting.has c = true :=
      Table.has_iff.mpr ⟨j, Flights.mem_waiters.mp h_mem⟩
    have h_gone : (s.finish j result).1.flights.waiting.has c = false := by
      rw [← Bool.not_eq_true, h_left]
      exact fun h => h.2 h_mem
    simp [h_mem, h_has, h_gone, Nat.add_comm]
  · have h_same : (s.finish j result).1.flights.waiting.has c = s.flights.waiting.has c := by
      rw [Bool.eq_iff_iff, h_left]
      simp [h_mem]
    simp [h_mem, h_same]

/-- A call that has not found its file is still owed an answer. -/
theorem missed_owes {s : BinaryStore} {c c' : ℕ} {call : Call}
    (h_call : s.calls.get? c' = some call) (h_owes : s.owes c ≤ s.askedBy c) :
    (s.missed c' call).1.owes c = s.owes c := by
  have h_has : s.calls.has c' = true := Table.has_iff.mpr ⟨call, h_call⟩
  obtain ⟨p, v, lookup⟩ := call
  cases lookup with
  | cached =>
    have h_calls : (s.missed c' ⟨p, v, .cached⟩).1.calls.has c = s.calls.has c := by
      by_cases h_c : c = c'
      · simp [BinaryStore.missed, Table.has_set, h_c, h_has]
      · simp [BinaryStore.missed, Table.has_set, h_c]
    rw [BinaryStore.owes, h_calls]
    rfl
  | built =>
    by_cases h_c : c = c'
    · subst h_c
      -- The call was looking for its file, and so was not waiting.
      have h_asked : s.askedBy c ≤ 1 := by
        rw [BinaryStore.askedBy]
        split <;> omega
      have h_free : s.flights.waiting.has c = false := by
        rw [← Bool.not_eq_true]
        intro h_wait
        simp only [BinaryStore.owes, h_has, h_wait, if_true] at h_owes
        omega
      have h_wait : (s.missed c ⟨p, v, .built⟩).1.flights.waiting.has c = true :=
        Table.has_iff.mpr ⟨_, Flights.waiting_request_self ..⟩
      have h_gone : (s.missed c ⟨p, v, .built⟩).1.calls.has c = false := by
        simp [BinaryStore.missed, Table.has_erase]
      simp [BinaryStore.owes, h_has, h_free, h_wait, h_gone]
    · have h_wait : (s.missed c' ⟨p, v, .built⟩).1.flights.waiting.has c =
          s.flights.waiting.has c :=
        congrArg Option.isSome (Flights.waiting_request_of_ne h_c)
      have h_calls : (s.missed c' ⟨p, v, .built⟩).1.calls.has c = s.calls.has c := by
        simp [BinaryStore.missed, Table.has_erase, h_c]
      rw [BinaryStore.owes, BinaryStore.owes, h_wait, h_calls]

/-- What a step answers, it no longer owes, and what is asked, it owes. -/
theorem step_owes {s : BinaryStore} {l : StoreLabel} {r : BinaryStore × StoreOut} {c : ℕ}
    (h_step : BinaryStore.step rt s l = some r) (h_l : l ≠ .restart)
    (h_owes : s.owes c ≤ s.askedBy c) :
    (r.2.answers.map Prod.fst).count c + r.1.owes c + s.askedBy c =
      s.owes c + r.1.askedBy c := by
  cases step_moves h_step with
  | @refused c' name version h_fresh =>
    by_cases h_c : c = c'
    · subst h_c
      simp [BinaryStore.owes, BinaryStore.askedBy, h_fresh] at h_owes ⊢
      omega
    · simp [BinaryStore.owes, BinaryStore.askedBy, h_c, Ne.symm h_c]
  | @asked c' name version p h_fresh =>
    by_cases h_c : c = c'
    · subst h_c
      simp [BinaryStore.owes, BinaryStore.askedBy, h_fresh] at h_owes
      simp [BinaryStore.owes, BinaryStore.askedBy, h_fresh, h_owes, Table.has_set]
    · simp [BinaryStore.owes, BinaryStore.askedBy, h_c, Table.has_set]
  | @hit c' call h_call =>
    have h_has : s.calls.has c' = true := Table.has_iff.mpr ⟨call, h_call⟩
    by_cases h_c : c = c'
    · subst h_c
      simp [BinaryStore.owes, BinaryStore.askedBy, h_has, Table.has_erase]
    · simp [BinaryStore.owes, BinaryStore.askedBy, h_c, Ne.symm h_c, Table.has_erase]
  | @missed c' call h_call =>
    have h_none : ((s.missed c' call).2.answers.map Prod.fst).count c = 0 := by
      obtain ⟨p, v, lookup⟩ := call
      cases lookup <;> rfl
    have h_same : (s.missed c' call).1.askedBy c = s.askedBy c := by
      obtain ⟨p, v, lookup⟩ := call
      cases lookup <;> rfl
    rw [h_none, missed_owes h_call h_owes, h_same, Nat.zero_add]
  | failed h_work =>
    rw [finish_owes h_work]
    rfl
  | wentOn =>
    show 0 + s.owes c + s.askedBy c = s.owes c + s.askedBy c
    rw [Nat.zero_add]
  | @written j k p v bytes h_work =>
    have h_finish := finish_owes h_work (.ok (.cache (cacheName p v))) c
    exact congrArg (· + s.askedBy c) h_finish
  | others => simp [BinaryStore.owes, BinaryStore.askedBy]
  | restart => exact absurd rfl h_l

/-- A call is asked once, -/
theorem asked_iff {tr : StoreTrace} {s : BinaryStore} (h : (storeMachine rt).Run tr s) (c : ℕ) :
    c ∈ s.asked ↔ ∃ name version o, (.resolve c name version, o) ∈ tr := by
  refine Machine.RunWhen.history
    (P := fun tr s => c ∈ s.asked ↔ ∃ name version o, (.resolve c name version, o) ∈ tr) ?_ ?_ h
  · simp [storeMachine]
  · intro tr s l s' o _ ih _ h_step
    generalize h_r : (s', o) = r at h_step
    obtain ⟨rfl, rfl⟩ : s' = r.1 ∧ o = r.2 := by simp [← h_r]
    have h_other : l.OfDownload → r.1.asked = s.asked →
        (c ∈ r.1.asked ↔ ∃ name version o, (.resolve c name version, o) ∈ tr ++ [(l, r.2)]) := by
      intro h_l h_asked
      rw [h_asked, ih]
      cases l <;> simp [StoreLabel.OfDownload] at h_l ⊢
    cases step_moves h_step with
    | failed h_work h_l => exact h_other h_l rfl
    | wentOn h_work h_next => exact h_other h_next.ofDownload rfl
    | written => exact h_other trivial rfl
    | @missed c' call =>
      have h_asked : (s.missed c' call).1.asked = s.asked := by
        obtain ⟨p, v, lookup⟩ := call
        cases lookup <;> rfl
      rw [h_asked, ih]
      simp
    | _ => simp [ih, or_comm, exists_or]

/-- What is answered and what is owed comes to what was asked, less what a restart has dropped. -/
structure Accounts (tr : StoreTrace) (s : BinaryStore) : Prop where
  most : ∀ c, answersTo c tr + s.owes c ≤ s.askedBy c
  all : (∀ o, (.restart, o) ∉ tr) → ∀ c, answersTo c tr + s.owes c = s.askedBy c

theorem accounts {tr : StoreTrace} {s : BinaryStore} (h : (storeMachine rt).Run tr s) :
    Accounts tr s := by
  refine Machine.RunWhen.history (P := Accounts) ?_ ?_ h
  · constructor <;> simp [answersTo, storeMachine, BinaryStore.owes, BinaryStore.askedBy,
      Flights.empty, Table.has]
  · intro tr s l s' o _ ih _ h_step
    have h_owes : ∀ c, s.owes c ≤ s.askedBy c := fun c => by
      have h_most := ih.most c
      omega
    -- a restart drops what is owed, so the account is an inequality from then on
    by_cases h_l : l = .restart
    · subst h_l
      obtain ⟨rfl, rfl⟩ := Prod.mk.inj (Option.some.inj h_step)
      refine ⟨fun c => ?_, fun h_never => absurd (by simp) (h_never {})⟩
      have h_most := ih.most c
      rw [answersTo_snoc]
      simp [BinaryStore.owes, BinaryStore.askedBy, Flights.empty, Table.has] at h_most ⊢
      omega
    · have h_pay : ∀ c, (o.answers.map Prod.fst).count c + s'.owes c + s.askedBy c =
          s.owes c + s'.askedBy c := fun c => step_owes h_step h_l (h_owes c)
      constructor
      case most =>
        intro c
        have h_most := ih.most c
        have h_c := h_pay c
        rw [answersTo_snoc]
        show answersTo c tr + (o.answers.map Prod.fst).count c + s'.owes c ≤ s'.askedBy c
        omega
      case all =>
        intro h_never c
        have h_all := ih.all (fun o h_mem => h_never o (by simp [h_mem])) c
        have h_c := h_pay c
        rw [answersTo_snoc]
        show answersTo c tr + (o.answers.map Prod.fst).count c + s'.owes c = s'.askedBy c
        omega

/-- **One download at a time.** In every reachable state, a platform and version has at most one
download, and a call that waits, waits for a download of the platform and version it asked for. -/
theorem one_download {tr : StoreTrace} {s : BinaryStore} (h_run : (storeMachine rt).Run tr s) :
    (∀ i j k k' d d', s.flights.work.get? i = some (k, d) → s.flights.work.get? j = some (k', d') →
      d.platform = d'.platform → d.version = d'.version → i = j) ∧
    ∀ c j, s.flights.waiting.get? c = some j →
      ∃ k d, s.flights.work.get? j = some (k, d) ∧ Asks tr c d.platform d.version := by
  have h_inv := storeInv h_run
  refine ⟨fun i j k k' d d' h_i h_j h_p h_v => ?_, h_inv.waiting⟩
  -- the key of a download is made of its platform and version
  obtain rfl : k = k' := by
    rw [h_inv.keyed i k d h_i, h_inv.keyed j k' d' h_j, h_p, h_v]
  exact h_inv.shared.unique h_j h_i

theorem one_download_linux : ∃ tr s k d, (storeMachine plainRuntime).Run tr s ∧
    s.flights.work.get? 0 = some (k, d) ∧ Asks tr 1 d.platform d.version := by
  have h_exec : ((storeMachine plainRuntime).exec (storeMachine plainRuntime).init
      twoAgents).map (fun q => q.2.flights.waiting.get? 1) = some (some 0) := by decide +kernel
  obtain ⟨⟨tr, s⟩, h_exec, h_wait⟩ := Option.map_eq_some_iff.mp h_exec
  have h_run := Machine.run_of_exec twoAgents h_exec
  obtain ⟨k, d, h_work, h_asks⟩ := (one_download h_run).2 1 0 h_wait
  exact ⟨tr, s, k, d, h_run, h_work, h_asks⟩

/-- **One answer for each call.** A call is never answered twice, and in a run without a restart
every call that was made has been answered once, or it is looking for a file or waiting for a
download. -/
theorem resolved_once {tr : StoreTrace} {s : BinaryStore} (h_run : (storeMachine rt).Run tr s)
    (c : ℕ) :
    answersTo c tr ≤ 1 ∧
    ((∀ o, (.restart, o) ∉ tr) → (∃ name version o, (.resolve c name version, o) ∈ tr) →
      answersTo c tr + s.owes c = 1) := by
  have h_acc := accounts h_run
  have h_asked : s.askedBy c ≤ 1 := by
    rw [BinaryStore.askedBy]
    split <;> omega
  constructor
  · have h_most := h_acc.most c
    omega
  · intro h_never h_resolve
    rw [h_acc.all h_never c, BinaryStore.askedBy, if_pos ((asked_iff h_run c).mpr h_resolve)]

theorem resolved_once_linux : ∃ tr s, (storeMachine plainRuntime).Run tr s ∧
    answersTo 1 tr + s.owes 1 = 1 := by
  have h_exec : ((storeMachine plainRuntime).exec (storeMachine plainRuntime).init
      twoAgents).isSome = true := by decide +kernel
  obtain ⟨⟨tr, s⟩, h_exec⟩ := Option.isSome_iff_exists.mp h_exec
  have h_run := Machine.run_of_exec twoAgents h_exec
  have h_labels := Machine.exec_labels h_exec
  refine ⟨tr, s, h_run, (resolved_once h_run 1).2 (fun o h_mem => ?_) ?_⟩
  · have h_restart : StoreLabel.restart ∈ twoAgents := h_labels ▸ List.mem_map_of_mem h_mem
    simp [twoAgents] at h_restart
  · have h_resolve : StoreLabel.resolve 1 "linux" "1.2.3" ∈ tr.map Prod.fst := by
      simp [h_labels, twoAgents]
    obtain ⟨⟨l, o⟩, h_mem, rfl⟩ := List.mem_map.mp h_resolve
    exact ⟨_, _, o, h_mem⟩

end ServerCentral.Binaries
