import ServerCentral.Compose.StackStatus
import ServerCentral.Framework.Digits

/-!
# The ports of a container, shown twice

The services of a stack show the ports their containers publish. `formatPorts` reads them from
the records of `docker compose ps`, `portsFromPsString` from the column of `docker ps`, where
docker writes neighbouring ports of one address as a range. `PsRenderer` is that column: each
published port stands in one of its parts. `shown_ports_iff` says when the two functions show
the same pairs.
-/

open Framework
open ServerCentral.Auth (trim isSpace isSpace_digit trim_visible)

namespace ServerCentral.Compose

/-! ### What docker writes -/

/-- An address or a protocol as docker writes it. -/
@[ext] structure DockerWord where
  text : List Char
  nonempty : text ≠ []
  plain : ∀ c ∈ text, c ≠ ',' ∧ c ≠ '>' ∧ isSpace c = false

/-- A port of a container, bound to an address of the host; `published` is 0 for a port that
is not published. -/
structure PortBinding where
  host : DockerWord
  published : ℕ
  target : ℕ
  protocol : DockerWord

/-- The record of a binding in `docker compose ps`. -/
def PortBinding.publisher (b : PortBinding) : Publisher :=
  ⟨some b.target, some b.published, some b.protocol.text⟩

/-- A part of the ports column: `more + 1` neighbouring ports, not published or bound to an
address. -/
inductive PortSegment where
  | exposed (first more : ℕ) (protocol : DockerWord)
  | bound (host : DockerWord) (first target more : ℕ) (protocol : DockerWord)

/-- `8080`, or `8080-8082`. -/
def rangeText (first more : ℕ) : List Char :=
  Nat.toDigits 10 first ++ if more = 0 then [] else '-' :: Nat.toDigits 10 (first + more)

namespace PortSegment

/-- `80/tcp`, or `0.0.0.0:8080->80/tcp`. -/
def text : PortSegment → List Char
  | exposed first more protocol => rangeText first more ++ '/' :: protocol.text
  | bound host first target more protocol =>
    host.text ++ ':' :: (rangeText first more ++
      '-' :: '>' :: (rangeText target more ++ '/' :: protocol.text))

/-- The bindings a part stands for. -/
def bindings : PortSegment → List PortBinding
  | exposed _ _ _ => []
  | bound host first target more protocol =>
    (List.range (more + 1)).map fun i => ⟨host, first + i, target + i, protocol⟩

/-- The pair of a part that is no range. -/
def alone : PortSegment → Option (ℕ × ℕ)
  | exposed _ _ _ => none
  | bound _ first target more _ => if more = 0 then some (first, target) else none

end PortSegment

/-- The ports column of `docker ps`: its parts stand for the published ports. -/
structure PsRenderer where
  segments : List PortBinding → List PortSegment
  sound : ∀ ports, ∀ s ∈ segments ports, ∀ b ∈ s.bindings, b ∈ ports ∧ b.published ≠ 0
  complete : ∀ ports, ∀ b ∈ ports, b.published ≠ 0 → ∃ s ∈ segments ports, b ∈ s.bindings

def PsRenderer.column (render : PsRenderer) (ports : List PortBinding) : List Char :=
  ", ".toList.intercalate ((render.segments ports).map PortSegment.text)

/-- Each published pair stands in a part of its own, which is no range. -/
def EachAlone (segments : List PortSegment) : Prop :=
  ∀ s ∈ segments, ∀ b ∈ s.bindings, ∃ s' ∈ segments, s'.alone = some (b.published, b.target)

/-! ### Scanning a part -/

section Scan

theorem matchArrow_eq_none {text : List Char}
    (h : ∀ rest, text.dropWhile Char.isDigit ≠ '-' :: '>' :: rest) : matchArrow text = none := by
  rw [matchArrow]
  dsimp only
  split
  next rest h_rest => exact absurd h_rest (h rest)
  next => rfl

theorem matchArrow_eq {text rest : List Char}
    (h : text.dropWhile Char.isDigit = '-' :: '>' :: rest) :
    matchArrow text =
      if text.takeWhile Char.isDigit ≠ [] ∧ rest.takeWhile Char.isDigit ≠ [] then
        some (text.takeWhile Char.isDigit, rest.takeWhile Char.isDigit)
      else none := by
  rw [matchArrow, h]
  rfl

/-- Without a `>` there is no arrow. -/
theorem findArrow_noArrow {text : List Char} (h : '>' ∉ text) : findArrow text = none := by
  induction text with
  | nil => rfl
  | cons c rest ih =>
    have h_rest : '>' ∉ rest := fun h_mem => h (List.mem_cons_of_mem c h_mem)
    have h_match : matchArrow rest = none := by
      apply matchArrow_eq_none
      intro tail h_tail
      have h_mem : '>' ∈ rest.dropWhile Char.isDigit := by simp [h_tail]
      exact h_rest ((List.dropWhile_sublist _).subset h_mem)
    rw [findArrow, h_match, ih h_rest, ite_self, Option.or_none]

/-- Text without a colon is skipped. -/
theorem findArrow_skip {before : List Char} (h : ':' ∉ before) (text : List Char) :
    findArrow (before ++ text) = findArrow text := by
  induction before with
  | nil => rfl
  | cons c rest ih =>
    rw [List.mem_cons, not_or] at h
    obtain ⟨h_c, h_rest⟩ := h
    rw [List.cons_append, findArrow, if_neg (Ne.symm h_c), Option.none_or, ih h_rest]

/-- At a colon of the address no arrow follows. -/
theorem matchArrow_host {host : List Char} (h : '>' ∉ host) (text : List Char) :
    matchArrow (host ++ ':' :: text) = none := by
  apply matchArrow_eq_none
  intro tail h_tail
  have h_drop : (host ++ ':' :: text).dropWhile Char.isDigit =
      host.dropWhile Char.isDigit ++ ':' :: text := by
    rw [List.dropWhile_append]
    split
    next h_all =>
      rw [List.isEmpty_iff.mp h_all, List.nil_append, List.dropWhile_cons_of_neg (by decide)]
    next => rfl
  rw [h_drop] at h_tail
  have h_left : '>' ∉ host.dropWhile Char.isDigit := fun h_mem =>
    h ((List.dropWhile_sublist _).subset h_mem)
  -- the second character is one of the address, or the colon
  cases h_host : host.dropWhile Char.isDigit with
  | nil =>
    rw [h_host] at h_tail
    exact absurd (List.cons.inj h_tail).1 (by decide)
  | cons c rest =>
    rw [h_host] at h_tail h_left
    cases rest with
    | nil => exact absurd (List.cons.inj (List.cons.inj h_tail).2).1 (by decide)
    | cons d rest =>
      have h_d : d = '>' := (List.cons.inj (List.cons.inj h_tail).2).1
      exact h_left (by simp [h_d])

theorem findArrow_host {host : List Char} (h : '>' ∉ host) (text : List Char) :
    findArrow (host ++ ':' :: text) = (matchArrow text).or (findArrow text) := by
  induction host with
  | nil => rw [List.nil_append, findArrow, if_pos rfl]
  | cons c rest ih =>
    have h_rest : '>' ∉ rest := fun h_mem => h (List.mem_cons_of_mem c h_mem)
    rw [List.cons_append, findArrow, matchArrow_host h_rest, ite_self, Option.none_or, ih h_rest]

/-- What the scan finds in a part: the pair of one that is no range. -/
theorem findArrow_segment (s : PortSegment) :
    findArrow s.text = s.alone.map fun pair => (Nat.toDigits 10 pair.1, Nat.toDigits 10 pair.2) := by
  have h_word : ∀ w : DockerWord, '>' ∉ w.text := fun w h_mem => (w.plain _ h_mem).2.1 rfl
  have h_range : ∀ (c : Char) (first more : ℕ), c.isDigit = false → c ≠ '-' →
      c ∉ rangeText first more := by
    intro c first more h_digit h_dash
    rw [rangeText]
    split
    · simpa using notMem_toDigits h_digit
    · simpa [h_dash] using ⟨notMem_toDigits h_digit, notMem_toDigits h_digit⟩
  have h_tail : ∀ (first more : ℕ) (w : DockerWord), '>' ∉ rangeText first more ++ '/' :: w.text := by
    intro first more w
    simpa using ⟨h_range '>' first more (by decide) (by decide), h_word w⟩
  cases s with
  | exposed first more protocol => exact findArrow_noArrow (h_tail first more protocol)
  | bound host first target more protocol =>
    rw [PortSegment.text, findArrow_host (h_word host), PortSegment.alone]
    by_cases h_more : more = 0
    · have h_one : ∀ n, rangeText n more = Nat.toDigits 10 n := fun n => by simp [rangeText, h_more]
      have h_match : matchArrow (rangeText first more ++
          '-' :: '>' :: (rangeText target more ++ '/' :: protocol.text)) =
            some (Nat.toDigits 10 first, Nat.toDigits 10 target) := by
        rw [h_one, h_one, matchArrow_eq (dropWhile_toDigits _ (by decide) _),
          takeWhile_toDigits _ (by decide), takeWhile_toDigits _ (by decide),
          if_pos ⟨Nat.toDigits_ne_nil, Nat.toDigits_ne_nil⟩]
      rw [h_match, if_pos h_more]
      rfl
    · -- a second number follows the dash, and after the arrow there is no other one
      obtain ⟨d, digits, h_digits⟩ : ∃ d digits, Nat.toDigits 10 (first + more) = d :: digits :=
        List.exists_cons_of_ne_nil Nat.toDigits_ne_nil
      have h_d : d.isDigit = true := isDigit_toDigits (h_digits ▸ List.mem_cons_self)
      have h_match : matchArrow (rangeText first more ++
          '-' :: '>' :: (rangeText target more ++ '/' :: protocol.text)) = none := by
        apply matchArrow_eq_none
        intro rest h_rest
        rw [rangeText, if_neg h_more, List.append_assoc, List.cons_append,
          dropWhile_toDigits _ (by decide), h_digits] at h_rest
        have h_gt : d = '>' := (List.cons.inj (List.cons.inj h_rest).2).1
        rw [h_gt] at h_d
        exact absurd h_d (by decide)
      have h_find : findArrow (rangeText first more ++
          '-' :: '>' :: (rangeText target more ++ '/' :: protocol.text)) = none := by
        rw [findArrow_skip (h_range ':' first more (by decide) (by decide)), findArrow,
          if_neg (by decide), Option.none_or, findArrow, if_neg (by decide), Option.none_or]
        exact findArrow_noArrow (h_tail target more protocol)
      rw [h_match, h_find, if_neg h_more]
      rfl

end Scan

/-! ### Scanning the column -/

theorem intercalate_comma (part : List Char) (parts : List (List Char)) :
    ", ".toList.intercalate (part :: parts) = join ',' (part :: parts.map (' ' :: ·)) := by
  induction parts generalizing part with
  | nil => rw [List.map_nil, join_singleton, List.intercalate_singleton]
  | cons next parts ih =>
    rw [List.intercalate_cons_cons, ih, List.map_cons, join_cons_cons, List.append_assoc]
    cases parts with
    | nil => rw [List.map_nil, join_singleton, join_singleton]; rfl
    | cons third parts => rw [List.map_cons, join_cons_cons, join_cons_cons]; rfl

/-- The text of a part has no comma and no white space. -/
theorem PortSegment.text_plain (s : PortSegment) : ∀ c ∈ s.text, c ≠ ',' ∧ isSpace c = false := by
  have h_digit : ∀ (n : ℕ), ∀ c ∈ Nat.toDigits 10 n, c ≠ ',' ∧ isSpace c = false := by
    intro n c h_c
    have h_is := isDigit_toDigits h_c
    refine ⟨?_, ?_⟩
    · rintro rfl
      exact absurd h_is (by decide)
    · exact isSpace_digit h_is
  have h_range : ∀ (first more : ℕ), ∀ c ∈ rangeText first more, c ≠ ',' ∧ isSpace c = false := by
    intro first more c h_c
    rw [rangeText] at h_c
    split at h_c
    · exact h_digit first c (by simpa using h_c)
    · obtain h_c | h_c := List.mem_append.mp h_c
      · exact h_digit first c h_c
      · obtain rfl | h_c := List.mem_cons.mp h_c
        · decide
        · exact h_digit _ c h_c
  have h_word : ∀ w : DockerWord, ∀ c ∈ w.text, c ≠ ',' ∧ isSpace c = false := fun w c h_c =>
    ⟨(w.plain c h_c).1, (w.plain c h_c).2.2⟩
  have h_sep : ∀ c : Char, c = ':' ∨ c = '/' ∨ c = '-' ∨ c = '>' → c ≠ ',' ∧ isSpace c = false := by
    rintro c (rfl | rfl | rfl | rfl) <;> decide
  intro c h_c
  cases s with
  | exposed first more protocol =>
    rw [text, List.mem_append, List.mem_cons] at h_c
    obtain h_c | rfl | h_c := h_c
    · exact h_range _ _ c h_c
    · exact h_sep '/' (by simp)
    · exact h_word _ c h_c
  | bound host first target more protocol =>
    simp only [text, List.mem_append, List.mem_cons] at h_c
    obtain h_c | h_c | h_c | h_c | h_c | h_c | h_c | h_c := h_c
    · exact h_word _ c h_c
    · exact h_sep c (by simp [h_c])
    · exact h_range _ _ c h_c
    · exact h_sep c (by simp [h_c])
    · exact h_sep c (by simp [h_c])
    · exact h_range _ _ c h_c
    · exact h_sep c (by simp [h_c])
    · exact h_word _ c h_c

theorem scanPart_text (s : PortSegment) : scanPart s.text = findArrow s.text := by
  have h_visible : ∀ c ∈ (String.ofList s.text).toList, isSpace c = false := by
    rw [String.toList_ofList]
    exact fun c h_c => (s.text_plain c h_c).2
  rw [scanPart, trim_visible h_visible, String.toList_ofList]

/-- The blank after a comma is trimmed. -/
theorem scanPart_blank (s : PortSegment) : scanPart (' ' :: s.text) = findArrow s.text := by
  have h_trim : trim (.ofList (' ' :: s.text)) = trim (.ofList s.text) := by
    rw [trim, trim, String.toList_ofList, String.toList_ofList,
      List.dropWhile_cons_of_pos (by decide)]
  rw [scanPart, h_trim]
  exact scanPart_text s

/-- The scan of the parts one by one. -/
theorem filterMap_column (segments : List PortSegment) :
    ((", ".toList.intercalate (segments.map PortSegment.text)).splitOn ',').filterMap scanPart =
      segments.filterMap fun s => findArrow s.text := by
  have h_comma : ∀ s : PortSegment, ',' ∉ s.text := fun s h_mem => (s.text_plain _ h_mem).1 rfl
  cases segments with
  | nil =>
    have h_empty : scanPart [] = none := by
      rw [scanPart, trim, String.toList_ofList, String.toList_ofList]
      rfl
    rw [List.map_nil, List.intercalate_nil, List.splitOn_nil, List.filterMap_cons, h_empty]
    rfl
  | cons s segments =>
    have h_parts : ∀ part ∈ s.text :: (segments.map PortSegment.text).map (' ' :: ·), ',' ∉ part := by
      intro part h_part
      obtain rfl | h_part := List.mem_cons.mp h_part
      · exact h_comma s
      · rw [List.map_map] at h_part
        obtain ⟨s', -, rfl⟩ := List.mem_map.mp h_part
        exact fun h_mem => h_comma s' (List.mem_of_ne_of_mem (by simp) h_mem)
    have h_rest : ((segments.map PortSegment.text).map (' ' :: ·)).filterMap scanPart =
        segments.filterMap fun s => findArrow s.text := by
      rw [List.map_map, List.filterMap_map]
      apply List.filterMap_congr
      intro s' _
      rw [Function.comp_apply, Function.comp_apply, scanPart_blank]
    rw [List.map_cons, intercalate_comma, splitOn_join (List.cons_ne_nil _ _) h_parts,
      List.filterMap_cons, List.filterMap_cons, h_rest, scanPart_text]

/-- The text of a pair. -/
def pairText (pair : ℕ × ℕ) : List Char :=
  arrowText (Nat.toDigits 10 pair.1) (Nat.toDigits 10 pair.2)

theorem splitFirst_before {before : List Char} {sep : Char} (h : sep ∉ before) (after : List Char) :
    splitFirst sep (before ++ sep :: after) = some (before, after) :=
  splitFirst_eq_some.mpr ⟨rfl, h⟩

theorem pairText_inj {pair pair' : ℕ × ℕ} (h : pairText pair = pairText pair') : pair = pair' := by
  have h_split : ∀ q : ℕ × ℕ, splitFirst '→' (pairText q) =
      some (Nat.toDigits 10 q.1, Nat.toDigits 10 q.2) := fun q =>
    splitFirst_before (notMem_toDigits (by decide)) _
  have h_eq : some (Nat.toDigits 10 pair.1, Nat.toDigits 10 pair.2) =
      some (Nat.toDigits 10 pair'.1, Nat.toDigits 10 pair'.2) := by
    rw [← h_split, h, h_split]
  obtain ⟨h_fst, h_snd⟩ := Prod.mk.inj (Option.some.inj h_eq)
  exact Prod.ext (toDigits_inj h_fst) (toDigits_inj h_snd)

theorem mem_foldl_new (pairs : List (List Char × List Char)) (item : List Char) :
    item ∈ pairs.foldl (fun seen pair =>
      if seen.contains (arrowText pair.1 pair.2) then seen else seen ++ [arrowText pair.1 pair.2])
        [] ↔ ∃ pair ∈ pairs, arrowText pair.1 pair.2 = item := by
  induction pairs using List.reverseRecOn with
  | nil => simp
  | append_singleton pairs last ih =>
    rw [List.foldl_append, List.foldl_cons, List.foldl_nil]
    have h_concat : (∃ pair ∈ pairs ++ [last], arrowText pair.1 pair.2 = item) ↔
        (∃ pair ∈ pairs, arrowText pair.1 pair.2 = item) ∨ arrowText last.1 last.2 = item := by
      simp only [List.mem_append, List.mem_singleton, or_and_right, exists_or, exists_eq_left]
    rw [h_concat, ← ih]
    split
    case isTrue h_seen =>
      constructor
      · exact .inl
      · rintro (h_mem | rfl)
        · exact h_mem
        · exact List.contains_iff_mem.mp h_seen
    case isFalse =>
      rw [List.mem_append, List.mem_singleton, eq_comm (a := item)]

/-- What `portsFromPsString` shows: the pairs of the parts that are no ranges. -/
theorem mem_scannedPairs (segments : List PortSegment) (item : List Char) :
    item ∈ scannedPairs (", ".toList.intercalate (segments.map PortSegment.text)) ↔
      ∃ s ∈ segments, ∃ pair, s.alone = some pair ∧ pairText pair = item := by
  rw [scannedPairs, filterMap_column, mem_foldl_new]
  constructor
  · rintro ⟨texts, h_texts, rfl⟩
    obtain ⟨s, h_s, h_found⟩ := List.mem_filterMap.mp h_texts
    rw [findArrow_segment] at h_found
    obtain ⟨pair, h_alone, rfl⟩ := Option.map_eq_some_iff.mp h_found
    exact ⟨s, h_s, pair, h_alone, rfl⟩
  · rintro ⟨s, h_s, pair, h_alone, rfl⟩
    have h_found : findArrow s.text =
        some (Nat.toDigits 10 pair.1, Nat.toDigits 10 pair.2) := by
      rw [findArrow_segment, h_alone, Option.map_some]
    exact ⟨_, List.mem_filterMap.mpr ⟨s, h_s, h_found⟩, rfl⟩

/-! ### The records -/

theorem portText_noSlash (port : Option ℕ) : '/' ∉ portText port := by
  cases port with
  | none => decide
  | some n => exact notMem_toDigits (by decide)

/-- Records with one key show one pair. -/
theorem arrow_of_key {p q : Publisher} (h : p.key = q.key) : p.arrow = q.arrow := by
  have h_first : ∀ p : Publisher, splitFirst '/' p.key =
      some (portText p.publishedPort, portText p.targetPort ++ '/' :: p.protocol.getD "tcp".toList) :=
    fun p => splitFirst_before (portText_noSlash _) _
  have h_second : ∀ p : Publisher,
      splitFirst '/' (portText p.targetPort ++ '/' :: p.protocol.getD "tcp".toList) =
        some (portText p.targetPort, p.protocol.getD "tcp".toList) :=
    fun p => splitFirst_before (portText_noSlash _) _
  have h_eq := h_first p
  rw [h, h_first q] at h_eq
  obtain ⟨h_published, h_rest⟩ := Prod.mk.inj (Option.some.inj h_eq)
  have h_eq' := h_second p
  rw [← h_rest, h_second q] at h_eq'
  obtain ⟨h_target, -⟩ := Prod.mk.inj (Option.some.inj h_eq')
  rw [Publisher.arrow, Publisher.arrow, h_published, h_target]

theorem firstByKey_subset (seen : List (List Char)) (publishers : List Publisher) :
    ∀ p ∈ firstByKey seen publishers, p ∈ publishers := by
  induction publishers generalizing seen with
  | nil => exact fun p h => h
  | cons q rest ih =>
    intro p h_p
    rw [firstByKey] at h_p
    split at h_p
    · exact List.mem_cons_of_mem q (ih seen p h_p)
    · obtain rfl | h_p := List.mem_cons.mp h_p
      · exact List.mem_cons_self
      · exact List.mem_cons_of_mem q (ih _ p h_p)

/-- Every key is kept once. -/
theorem key_firstByKey (seen : List (List Char)) (publishers : List Publisher) :
    ∀ p ∈ publishers, p.key ∈ seen ∨ ∃ q ∈ firstByKey seen publishers, q.key = p.key := by
  induction publishers generalizing seen with
  | nil => exact fun p h => absurd h List.not_mem_nil
  | cons first rest ih =>
    intro p h_p
    rw [firstByKey]
    split
    next h_seen =>
      obtain rfl | h_p := List.mem_cons.mp h_p
      · exact .inl (List.contains_iff_mem.mp h_seen)
      · exact ih seen p h_p
    next =>
      obtain rfl | h_p := List.mem_cons.mp h_p
      · exact .inr ⟨p, List.mem_cons_self, rfl⟩
      · obtain h_key | ⟨q, h_q, h_key⟩ := ih (first.key :: seen) p h_p
        · obtain h_key | h_key := List.mem_cons.mp h_key
          · exact .inr ⟨first, List.mem_cons_self, h_key.symm⟩
          · exact .inl h_key
        · exact .inr ⟨q, List.mem_cons_of_mem first h_q, h_key⟩

/-- What `formatPorts` shows: the pairs of the published ports. -/
theorem mem_formattedPairs (publishers : List Publisher) (item : List Char) :
    item ∈ formattedPairs publishers ↔
      ∃ p ∈ publishers, p.published = true ∧ p.arrow = item := by
  rw [formattedPairs, List.mem_map]
  constructor
  · rintro ⟨p, h_p, rfl⟩
    obtain ⟨h_mem, h_published⟩ := List.mem_filter.mp (firstByKey_subset _ _ p h_p)
    exact ⟨p, h_mem, h_published, rfl⟩
  · rintro ⟨p, h_p, h_published, rfl⟩
    obtain h_none | ⟨q, h_q, h_key⟩ :=
      key_firstByKey [] _ p (List.mem_filter.mpr ⟨h_p, h_published⟩)
    · exact absurd h_none List.not_mem_nil
    · exact ⟨q, h_q, arrow_of_key h_key⟩

theorem mem_formattedPairs_bindings (ports : List PortBinding) (item : List Char) :
    item ∈ formattedPairs (ports.map PortBinding.publisher) ↔
      ∃ b ∈ ports, b.published ≠ 0 ∧ pairText (b.published, b.target) = item := by
  rw [mem_formattedPairs]
  constructor
  · rintro ⟨p, h_p, h_published, rfl⟩
    obtain ⟨b, h_b, rfl⟩ := List.mem_map.mp h_p
    exact ⟨b, h_b, of_decide_eq_true h_published, rfl⟩
  · rintro ⟨b, h_b, h_published, rfl⟩
    exact ⟨_, List.mem_map_of_mem h_b, decide_eq_true h_published, rfl⟩

/-! ### The theorem -/

theorem PortSegment.alone_mem {s : PortSegment} {pair : ℕ × ℕ} (h : s.alone = some pair) :
    ∃ b ∈ s.bindings, (b.published, b.target) = pair := by
  cases s with
  | exposed => exact absurd h (by simp [alone])
  | bound host first target more protocol =>
    rw [alone] at h
    split at h
    next h_more =>
      obtain rfl := Option.some.inj h
      exact ⟨⟨host, first + 0, target + 0, protocol⟩,
        List.mem_map.mpr ⟨0, List.mem_range.mpr (Nat.succ_pos _), rfl⟩, rfl⟩
    next => exact absurd h (by simp)

/-- **The ports of a container** are shown as the same set of pairs exactly if each published
pair that docker writes in a range also stands alone. -/
theorem shown_ports_iff (render : PsRenderer) (ports : List PortBinding) :
    (∀ item, item ∈ formattedPairs (ports.map PortBinding.publisher) ↔
      item ∈ scannedPairs (render.column ports)) ↔ EachAlone (render.segments ports) := by
  rw [PsRenderer.column]
  constructor
  · intro h s h_s b h_b
    obtain ⟨h_port, h_published⟩ := render.sound ports s h_s b h_b
    have h_item := (mem_formattedPairs_bindings ports _).mpr ⟨b, h_port, h_published, rfl⟩
    obtain ⟨s', h_s', pair, h_alone, h_text⟩ := (mem_scannedPairs _ _).mp ((h _).mp h_item)
    rw [pairText_inj h_text] at h_alone
    exact ⟨s', h_s', h_alone⟩
  · intro h item
    rw [mem_formattedPairs_bindings, mem_scannedPairs]
    constructor
    · rintro ⟨b, h_b, h_published, rfl⟩
      obtain ⟨s, h_s, h_mem⟩ := render.complete ports b h_b h_published
      obtain ⟨s', h_s', h_alone⟩ := h s h_s b h_mem
      exact ⟨s', h_s', _, h_alone, rfl⟩
    · rintro ⟨s, h_s, pair, h_alone, rfl⟩
      obtain ⟨b, h_b, rfl⟩ := s.alone_mem h_alone
      obtain ⟨h_port, h_published⟩ := render.sound ports s h_s b h_b
      exact ⟨b, h_port, h_published, rfl⟩

/-! ### A column with ranges -/

/-- A binding before the parts that follow it: the next part grows if it goes on from it. -/
def joinSegment (b : PortBinding) : List PortSegment → List PortSegment
  | .bound host first target more protocol :: rest =>
    if host.text = b.host.text ∧ protocol.text = b.protocol.text ∧ first = b.published + 1 ∧
        target = b.target + 1 then
      .bound b.host b.published b.target (more + 1) b.protocol :: rest
    else
      .bound b.host b.published b.target 0 b.protocol :: .bound host first target more protocol :: rest
  | segments => .bound b.host b.published b.target 0 b.protocol :: segments

/-- The parts of a list of ports in order. -/
def collapse : List PortBinding → List PortSegment
  | [] => []
  | b :: rest =>
    if b.published = 0 then .exposed b.target 0 b.protocol :: collapse rest
    else joinSegment b (collapse rest)

theorem bindings_single (b : PortBinding) :
    (PortSegment.bound b.host b.published b.target 0 b.protocol).bindings = [b] := rfl

theorem bindings_grow (host protocol : DockerWord) (first target more : ℕ) :
    (PortSegment.bound host first target (more + 1) protocol).bindings =
      ⟨host, first, target, protocol⟩ ::
        (PortSegment.bound host (first + 1) (target + 1) more protocol).bindings := by
  rw [PortSegment.bindings, PortSegment.bindings, List.range_succ_eq_map, List.map_cons,
    List.map_map]
  congr 1
  apply List.map_congr_left
  intro i _
  show PortBinding.mk host (first + (i + 1)) (target + (i + 1)) protocol =
    ⟨host, first + 1 + i, target + 1 + i, protocol⟩
  rw [Nat.add_assoc first, Nat.add_assoc target, Nat.add_comm 1 i]

theorem bindings_joinSegment (b : PortBinding) (segments : List PortSegment) :
    (joinSegment b segments).flatMap PortSegment.bindings =
      b :: segments.flatMap PortSegment.bindings := by
  cases segments with
  | nil => rfl
  | cons s rest =>
    cases s with
    | exposed => rfl
    | bound host first target more protocol =>
      rw [joinSegment]
      split
      next h =>
        obtain ⟨h_host, h_protocol, rfl, rfl⟩ := h
        obtain rfl := DockerWord.ext h_host
        obtain rfl := DockerWord.ext h_protocol
        rw [List.flatMap_cons, List.flatMap_cons, bindings_grow]
        rfl
      next => rfl

theorem mem_bindings_collapse (ports : List PortBinding) (b : PortBinding) :
    b ∈ (collapse ports).flatMap PortSegment.bindings ↔ b ∈ ports ∧ b.published ≠ 0 := by
  induction ports with
  | nil => simp [collapse]
  | cons first rest ih =>
    rw [collapse]
    split
    next h_zero =>
      rw [List.flatMap_cons, PortSegment.bindings, List.nil_append, ih, List.mem_cons]
      constructor
      · rintro ⟨h_mem, h_published⟩
        exact ⟨.inr h_mem, h_published⟩
      · rintro ⟨rfl | h_mem, h_published⟩
        · exact absurd h_zero h_published
        · exact ⟨h_mem, h_published⟩
    next h_published =>
      rw [bindings_joinSegment, List.mem_cons, ih, List.mem_cons]
      constructor
      · rintro (rfl | ⟨h_mem, h⟩)
        · exact ⟨.inl rfl, h_published⟩
        · exact ⟨.inr h_mem, h⟩
      · rintro ⟨rfl | h_mem, h⟩
        · exact .inl rfl
        · exact .inr ⟨h_mem, h⟩

/-- A column in which neighbouring ports that follow each other make a range. -/
def collapsing : PsRenderer where
  segments := collapse
  sound ports s h_s b h_b := (mem_bindings_collapse ports b).mp (List.mem_flatMap.mpr ⟨s, h_s, h_b⟩)
  complete ports b h_b h_published :=
    List.mem_flatMap.mp ((mem_bindings_collapse ports b).mpr ⟨h_b, h_published⟩)

theorem plain_of_all {text : List Char}
    (h : text.all (fun c => !(c == ',' || c == '>' || isSpace c)) = true) :
    ∀ c ∈ text, c ≠ ',' ∧ c ≠ '>' ∧ isSpace c = false := by
  intro c h_c
  have h_all := List.all_eq_true.mp h c h_c
  simp_all

def anyAddress : DockerWord := ⟨"0.0.0.0".toList, by decide, plain_of_all (by decide +kernel)⟩

def tcp : DockerWord := ⟨"tcp".toList, by decide, plain_of_all (by decide +kernel)⟩

/-- Three neighbouring ports: one function shows all of them and the other none. -/
theorem range_not_shown :
    ∃ render ports, PsRenderer.column render ports = "0.0.0.0:8000-8002->8000-8002/tcp".toList ∧
      formattedPairs (ports.map PortBinding.publisher) =
        ["8000→8000".toList, "8001→8001".toList, "8002→8002".toList] ∧
      scannedPairs (render.column ports) = [] := by
  let ports : List PortBinding := [⟨anyAddress, 8000, 8000, tcp⟩, ⟨anyAddress, 8001, 8001, tcp⟩,
    ⟨anyAddress, 8002, 8002, tcp⟩]
  exact ⟨collapsing, ports, by decide +kernel, by decide +kernel, by decide +kernel⟩

end ServerCentral.Compose
