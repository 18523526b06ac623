import ServerCentral.ClientIp.Addresses
import ServerCentral.Framework.CodeUnits

/-!
# The texts of an address

`Spelling` is the grammar: a dotted quad, eight groups of hexadecimal digits, or groups around
`::`, which stands for at least one group of zeros. In place of the last two groups a dotted
quad may stand. An IPv4-mapped address is the IPv4 address in it, however it is written.

`parseIp` folds a mapped address only where it is written as `::ffff:` and a dotted quad, and
reads a dotted quad nowhere else in an IPv6 address. `honoured_iff` says for which texts it does
what the grammar says.
-/

open Framework

namespace ServerCentral.ClientIp

/-! ### The grammar -/

/-- One to four hexadecimal digits. -/
structure Group where
  text : Text
  some : text ≠ []
  short : text.length ≤ 4
  hex : ∀ c ∈ text, isDigitOf 16 c = true

def Group.value (g : Group) : ℕ := readDigits 16 g.text

/-- One to three decimal digits, with a value below `256`. -/
structure Octet where
  text : Text
  some : text ≠ []
  short : text.length ≤ 3
  decimal : ∀ c ∈ text, isDigitOf 10 c = true
  byte : readDigits 10 text ≤ 255

def Octet.value (o : Octet) : UInt8 := .ofNat (readDigits 10 o.text)

structure Quad where
  o0 : Octet
  o1 : Octet
  o2 : Octet
  o3 : Octet

namespace Quad

def text (q : Quad) : Text := join '.' [q.o0.text, q.o1.text, q.o2.text, q.o3.text]

def address (q : Quad) : Address := ⟨[q.o0.value, q.o1.value, q.o2.value, q.o3.value], .inl rfl⟩

/-- The two groups a quad stands for. -/
def groups (q : Quad) : List ℕ :=
  [q.o0.value.toNat * 256 + q.o1.value.toNat, q.o2.value.toNat * 256 + q.o3.value.toNat]

end Quad

/-- Groups between colons, the last two perhaps as a quad. -/
structure Parts where
  groups : List Group
  tail : Option Quad

namespace Parts

def texts (p : Parts) : List Text := p.groups.map Group.text ++ p.tail.toList.map Quad.text

def values (p : Parts) : List ℕ := p.groups.map Group.value ++ p.tail.toList.flatMap Quad.groups

end Parts

inductive Spelling where
  | dotted (q : Quad)
  | full (parts : Parts) (eight : parts.values.length = 8)
  | elided (before : List Group) (after : Parts) (room : before.length + after.values.length < 8)

/-- The last two of eight groups. -/
def embedded (values : List ℕ) (h : values.length = 8) : Address where
  bytes := (values.drop 6).flatMap fun g => [.ofNat (g >>> 8), .ofNat (g &&& 0xff)]
  family := by simp [h]

/-- The groups of an IPv4-mapped address. -/
def MappedGroups (values : List ℕ) : Prop := values.take 6 = [0, 0, 0, 0, 0, 0xffff]

instance (values : List ℕ) : Decidable (MappedGroups values) :=
  inferInstanceAs (Decidable (_ = _))

/-- The address of eight groups, which is the IPv4 address in them where they are mapped. -/
def folded (values : List ℕ) (h : values.length = 8) : Address :=
  if MappedGroups values then embedded values h else .ofGroups values h

/-- The groups around `::`, and the zeros it stands for. -/
def elidedValues (before : List Group) (after : Parts) : List ℕ :=
  before.map Group.value ++ List.replicate (8 - before.length - after.values.length) 0 ++
    after.values

theorem length_elidedValues {before : List Group} {after : Parts}
    (h : before.length + after.values.length < 8) : (elidedValues before after).length = 8 := by
  simp only [elidedValues, List.length_append, List.length_map, List.length_replicate]
  omega

namespace Spelling

def text : Spelling → Text
  | dotted q => q.text
  | full parts _ => join ':' parts.texts
  | elided before after _ => join ':' (before.map Group.text) ++ ':' :: ':' :: join ':' after.texts

def address : Spelling → Address
  | dotted q => q.address
  | full parts h => folded parts.values h
  | elided before after h => folded (elidedValues before after) (length_elidedValues h)

/-- The spellings that `parseIp` reads as their address. -/
def Read : Spelling → Prop
  | dotted _ => True
  | full parts _ => parts.tail = none ∧ ¬MappedGroups parts.values
  | elided before after _ =>
    match after.tail with
    | none => ¬MappedGroups (elidedValues before after)
    | some _ => before = [] ∧ ∃ g, after.groups = [g] ∧ toLowerCase g.text = "ffff".toList

end Spelling

/-- Without the blanks and brackets around it. -/
def bare (text : Text) : Text := unwrap '[' ']' (trim text)

/-! ### Characters of a spelling -/

theorem isDigitOf_mono {c : Char} (h : isDigitOf 10 c = true) : isDigitOf 16 c = true :=
  decide_eq_true ((of_decide_eq_true h).trans (by decide))

theorem Group.plain (g : Group) : Plain ':' g.text ∧ '.' ∉ g.text :=
  ⟨⟨g.some, fun h => absurd (g.hex _ h) (by decide)⟩, fun h => absurd (g.hex _ h) (by decide)⟩

theorem Octet.digits (o : Octet) : digits o.text = true := by
  rw [ClientIp.digits, Bool.and_eq_true]
  exact ⟨decide_eq_true o.some, List.all_eq_true.mpr o.decimal⟩

theorem Octet.dot (o : Octet) : '.' ∉ o.text := fun h => absurd (o.decimal _ h) (by decide)

theorem Quad.mem_text {q : Quad} {c : Char} (h : c ∈ q.text) : c = '.' ∨ isDigitOf 10 c = true := by
  obtain h_dot | ⟨part, h_part, h_c⟩ := mem_join h
  · exact .inl h_dot
  · simp only [List.mem_cons, List.not_mem_nil, or_false] at h_part
    obtain rfl | rfl | rfl | rfl := h_part
    · exact .inr (q.o0.decimal c h_c)
    · exact .inr (q.o1.decimal c h_c)
    · exact .inr (q.o2.decimal c h_c)
    · exact .inr (q.o3.decimal c h_c)

theorem Quad.colon (q : Quad) : ':' ∉ q.text := by
  intro h
  obtain h_dot | h_digit := Quad.mem_text h
  · exact absurd h_dot (by decide)
  · exact absurd h_digit (by decide)

theorem Quad.dot (q : Quad) : '.' ∈ q.text := sep_mem_join (by simp)

theorem Quad.split (q : Quad) :
    q.text.splitOn '.' = [q.o0.text, q.o1.text, q.o2.text, q.o3.text] := by
  apply splitOn_join (List.cons_ne_nil _ _)
  intro part h_part
  simp only [List.mem_cons, List.not_mem_nil, or_false] at h_part
  obtain rfl | rfl | rfl | rfl := h_part
  · exact q.o0.dot
  · exact q.o1.dot
  · exact q.o2.dot
  · exact q.o3.dot

theorem Parts.plain {p : Parts} {part : Text} (h : part ∈ p.texts) : Plain ':' part := by
  obtain h_group | h_tail := List.mem_append.mp h
  · obtain ⟨g, -, rfl⟩ := List.mem_map.mp h_group
    exact g.plain.1
  · obtain ⟨q, -, rfl⟩ := List.mem_map.mp h_tail
    exact ⟨fun h_nil => absurd (h_nil ▸ q.dot) List.not_mem_nil, q.colon⟩

/-- Without a quad there is no dot. -/
theorem Parts.dot {p : Parts} (h_tail : p.tail = none) : '.' ∉ join ':' p.texts := by
  intro h
  obtain h_eq | ⟨part, h_part, h_c⟩ := mem_join h
  · exact absurd h_eq (by decide)
  · rw [Parts.texts, h_tail] at h_part
    simp only [Option.toList_none, List.map_nil, List.append_nil, List.mem_map] at h_part
    obtain ⟨g, -, rfl⟩ := h_part
    exact g.plain.2 h_c

/-! ### What the pieces are read as -/

theorem octet_text (o : Octet) : octet o.text = some o.value := by
  rw [octet, if_pos ⟨o.digits, o.short⟩]
  simp only [if_neg (Nat.not_lt.mpr o.byte)]
  rfl

theorem octet_eq_some {part : Text} {b : UInt8} (h : octet part = some b) :
    ∃ o : Octet, part = o.text ∧ b = o.value := by
  rw [octet] at h
  split at h
  · next h_shape =>
    obtain ⟨h_digits, h_short⟩ := h_shape
    rw [digits, Bool.and_eq_true, List.all_eq_true] at h_digits
    dsimp only at h
    split at h
    · cases h
    · next h_byte =>
      exact ⟨⟨part, of_decide_eq_true h_digits.1, h_short, h_digits.2, Nat.not_lt.mp h_byte⟩, rfl,
        (Option.some.inj h).symm⟩
  · cases h

theorem parseDotted_text (q : Quad) : parseDotted q.text = some q.address := by
  rw [parseDotted, q.split]
  simp only [octet_text, Option.bind_eq_bind, Option.bind_some]
  rfl

theorem parseDotted_eq_some {value : Text} {a : Address} (h : parseDotted value = some a) :
    ∃ q : Quad, value = q.text ∧ a = q.address := by
  rw [parseDotted] at h
  split at h
  · next p0 p1 p2 p3 h_split =>
    simp only [Option.bind_eq_bind, Option.bind_eq_some_iff, Option.some.injEq] at h
    obtain ⟨b0, h0, b1, h1, b2, h2, b3, h3, rfl⟩ := h
    obtain ⟨o0, rfl, rfl⟩ := octet_eq_some h0
    obtain ⟨o1, rfl, rfl⟩ := octet_eq_some h1
    obtain ⟨o2, rfl, rfl⟩ := octet_eq_some h2
    obtain ⟨o3, rfl, rfl⟩ := octet_eq_some h3
    refine ⟨⟨o0, o1, o2, o3⟩, ?_, rfl⟩
    rw [Quad.text, ← h_split, join_splitOn]
  · cases h

theorem hexGroup_text (g : Group) : hexGroup g.text = some g.value := by
  rw [hexGroup, if_pos ⟨g.some, g.short, List.all_eq_true.mpr g.hex⟩]
  rfl

theorem hexGroup_eq_some {text : Text} {n : ℕ} (h : hexGroup text = some n) :
    ∃ g : Group, text = g.text ∧ n = g.value := by
  rw [hexGroup] at h
  split at h
  · next h_shape =>
    obtain ⟨h_some, h_short, h_hex⟩ := h_shape
    exact ⟨⟨text, h_some, h_short, List.all_eq_true.mp h_hex⟩, rfl, (Option.some.inj h).symm⟩
  · cases h

theorem mapM_hexGroup (gs : List Group) :
    (gs.map Group.text).mapM hexGroup = some (gs.map Group.value) := by
  induction gs with
  | nil => rfl
  | cons g gs ih => simp [hexGroup_text, ih]

theorem mapM_hexGroup_eq_some {texts : List Text} {values : List ℕ}
    (h : texts.mapM hexGroup = some values) :
    ∃ gs : List Group, texts = gs.map Group.text ∧ values = gs.map Group.value := by
  induction texts generalizing values with
  | nil => exact ⟨[], rfl, by simpa using h.symm⟩
  | cons text texts ih =>
    simp only [List.mapM_cons, Option.bind_eq_bind, Option.bind_eq_some_iff, Option.pure_def,
      Option.some.injEq] at h
    obtain ⟨n, h_n, rest, h_rest, rfl⟩ := h
    obtain ⟨g, rfl, rfl⟩ := hexGroup_eq_some h_n
    obtain ⟨gs, rfl, rfl⟩ := ih h_rest
    exact ⟨g :: gs, rfl, rfl⟩

theorem groupTexts_join {texts : List Text} (h : ∀ text ∈ texts, Plain ':' text) :
    groupTexts (join ':' texts) = texts := by
  cases texts with
  | nil => rfl
  | cons text texts =>
    have h_some : join ':' (text :: texts) ≠ [] := by
      obtain ⟨h_text, -⟩ := h text List.mem_cons_self
      cases texts with
      | nil => simpa using h_text
      | cons next texts => simp
    rw [groupTexts, if_neg h_some, splitOn_join (List.cons_ne_nil _ _) fun t h_t => (h t h_t).2]

theorem join_groupTexts (half : Text) : join ':' (groupTexts half) = half := by
  rw [groupTexts]
  split
  · next h => rw [h, join_nil]
  · exact join_splitOn half

/-! ### IPv6 -/

theorem texts_of_tail {p : Parts} (h : p.tail = none) : p.texts = p.groups.map Group.text := by
  rw [Parts.texts, h]
  exact List.append_nil _

theorem values_of_tail {p : Parts} (h : p.tail = none) : p.values = p.groups.map Group.value := by
  rw [Parts.values, h]
  exact List.append_nil _

theorem plain_groups (gs : List Group) : ∀ text ∈ gs.map Group.text, Plain ':' text := by
  intro text h_text
  obtain ⟨g, -, rfl⟩ := List.mem_map.mp h_text
  exact g.plain.1

theorem parseIpv6_full {p : Parts} (h_tail : p.tail = none) (h : p.values.length = 8) :
    parseIpv6 (join ':' p.texts) = some (.ofGroups p.values h) := by
  have h_values := values_of_tail h_tail
  rw [texts_of_tail h_tail, parseIpv6, splitDouble_join (plain_groups p.groups)]
  simp only [groupTexts_join (plain_groups p.groups), mapM_hexGroup, Option.bind_eq_bind,
    Option.bind_some]
  rw [dif_pos (h_values ▸ h)]
  simp only [h_values]

theorem parseIpv6_elided {before : List Group} {after : Parts} (h_tail : after.tail = none)
    (h : before.length + after.values.length < 8) :
    parseIpv6 (join ':' (before.map Group.text) ++ ':' :: ':' :: join ':' after.texts) =
      some (.ofGroups (elidedValues before after) (length_elidedValues h)) := by
  have h_values := values_of_tail h_tail
  rw [texts_of_tail h_tail, parseIpv6, splitDouble_join_append (plain_groups before),
    splitDouble_join (plain_groups after.groups)]
  simp only [groupTexts_join (plain_groups before), groupTexts_join (plain_groups after.groups),
    mapM_hexGroup, Option.bind_eq_bind, Option.bind_some]
  rw [h_values, List.length_map] at h
  rw [dif_neg (by simp only [List.length_map]; omega)]
  simp only [elidedValues, h_values, List.length_map]

/-- **What `parseIpv6` accepts**: groups without a quad. -/
theorem parseIpv6_eq_some {value : Text} {a : Address} (h : parseIpv6 value = some a) :
    (∃ p : Parts, p.tail = none ∧ p.values.length = 8 ∧ value = join ':' p.texts) ∨
      ∃ (before : List Group) (after : Parts), after.tail = none ∧
        before.length + after.values.length < 8 ∧
        value = join ':' (before.map Group.text) ++ ':' :: ':' :: join ':' after.texts := by
  have h_pieces : [':', ':'].intercalate (splitDouble ':' value) = value :=
    intercalate_splitDouble value
  rw [parseIpv6] at h
  split at h
  · next whole h_split =>
    simp only [Option.bind_eq_bind, Option.bind_eq_some_iff] at h
    obtain ⟨values, h_values, h⟩ := h
    obtain ⟨gs, h_texts, rfl⟩ := mapM_hexGroup_eq_some h_values
    split at h
    · next h_eight =>
      refine .inl ⟨⟨gs, none⟩, rfl, ?_, ?_⟩
      · rw [values_of_tail rfl]
        exact h_eight
      · rw [texts_of_tail rfl, ← h_texts, join_groupTexts, ← h_pieces, h_split]
        simp [List.intercalate]
    · cases h
  · next head tail h_split =>
    simp only [Option.bind_eq_bind, Option.bind_eq_some_iff] at h
    obtain ⟨values, h_values, tailValues, h_tail, h⟩ := h
    obtain ⟨before, h_before, rfl⟩ := mapM_hexGroup_eq_some h_values
    obtain ⟨after, h_after, rfl⟩ := mapM_hexGroup_eq_some h_tail
    split at h
    · cases h
    · next h_room =>
      refine .inr ⟨before, ⟨after, none⟩, rfl, ?_, ?_⟩
      · rw [values_of_tail rfl]
        simp only [List.length_map] at h_room ⊢
        omega
      · rw [texts_of_tail rfl, ← h_before, ← h_after, join_groupTexts, join_groupTexts, ← h_pieces,
          h_split]
        simp [List.intercalate]
  · cases h

/-- A quad is read nowhere. -/
theorem parseIpv6_dot {value : Text} (h_dot : '.' ∈ value) : parseIpv6 value = none := by
  rw [Option.eq_none_iff_forall_not_mem]
  intro a h
  obtain ⟨p, h_tail, -, rfl⟩ | ⟨before, after, h_tail, -, rfl⟩ := parseIpv6_eq_some h
  · exact Parts.dot h_tail h_dot
  · obtain h_before | h_rest := List.mem_append.mp h_dot
    · have h_parts : before.map Group.text = Parts.texts ⟨before, none⟩ :=
        (texts_of_tail (p := ⟨before, none⟩) rfl).symm
      rw [h_parts] at h_before
      exact Parts.dot rfl h_before
    · obtain h_eq | h_rest := List.mem_cons.mp h_rest
      · exact absurd h_eq (by decide)
      · obtain h_eq | h_rest := List.mem_cons.mp h_rest
        · exact absurd h_eq (by decide)
        · exact Parts.dot h_tail h_rest

/-! ### IPv4-mapped addresses -/

theorem toLower_cases {c d : Char} (h : c.toLower = d) :
    c = d ∨ c.toNat + 32 = d.toNat ∧ 65 ≤ c.toNat ∧ c.toNat ≤ 90 := by
  unfold Char.toLower at h
  split at h
  · next h_upper =>
    have h_low : 65 ≤ c.toNat := UInt32.le_iff_toNat_le.mp h_upper.1
    have h_high : c.toNat ≤ 90 := UInt32.le_iff_toNat_le.mp h_upper.2
    have h_sum : d.toNat = (c.toNat + 32) % 2 ^ 32 := by
      rw [← h]
      exact UInt32.toNat_add c.val _
    refine .inr ⟨?_, h_low, h_high⟩
    omega
  · exact .inl h

theorem toLower_colon {c : Char} (h : c.toLower = ':') : c = ':' := by
  obtain h_eq | ⟨h_sum, h_low, -⟩ := toLower_cases h
  · exact h_eq
  · have h_colon : (':' : Char).toNat = 58 := rfl
    omega

theorem toLower_f {c : Char} (h : c.toLower = 'f') : c = 'f' ∨ c = 'F' := by
  obtain h_eq | ⟨h_sum, -, -⟩ := toLower_cases h
  · exact .inl h_eq
  · have h_f : ('f' : Char).toNat = 102 := rfl
    refine .inr (eq_of_toNat ?_)
    show c.toNat = 70
    omega

theorem hex_of_toLower {c : Char} (h : c.toLower = 'f') : isDigitOf 16 c = true := by
  obtain rfl | rfl := toLower_f h <;> decide

/-- A group whose digits are four letters `f`. -/
theorem value_of_ffff {g : Group} (h : toLowerCase g.text = "ffff".toList) : g.value = 0xffff := by
  obtain ⟨text, h_some, h_short, h_hex⟩ := g
  have h_length : text.length = 4 := by
    have h_map := congrArg List.length h
    rwa [toLowerCase, List.length_map] at h_map
  match text, h_length with
  | [c0, c1, c2, c3], _ =>
    have h_digit : ∀ c : Char, c.toLower = 'f' → digitValue c = 15 := by
      intro c h_c
      obtain rfl | rfl := toLower_f h_c <;> rfl
    have h_chars : [c0.toLower, c1.toLower, c2.toLower, c3.toLower] = ['f', 'f', 'f', 'f'] := h
    simp only [List.cons.injEq, and_true] at h_chars
    obtain ⟨h0, h1, h2, h3⟩ := h_chars
    simp [Group.value, readDigits, h_digit c0 h0, h_digit c1 h1, h_digit c2 h2, h_digit c3 h3]

theorem mapped_eq_some {value rest : Text} (h : mapped value = some rest) :
    ∃ g : Group, toLowerCase g.text = "ffff".toList ∧
      value = ':' :: ':' :: (g.text ++ ':' :: rest) ∧ ':' ∉ rest := by
  rw [mapped] at h
  split at h
  · next h_shape =>
    obtain ⟨h_head, -, h_digits⟩ := h_shape
    obtain rfl := Option.some.inj h
    have h_length : (value.take 7).length = 7 := by
      have h_map := congrArg List.length h_head
      rwa [toLowerCase, List.length_map] at h_map
    have h_value := List.take_append_drop 7 value
    generalize value.take 7 = head at h_head h_length h_value
    match head, h_length with
    | [c0, c1, c2, c3, c4, c5, c6], _ =>
      have h_chars : [c0.toLower, c1.toLower, c2.toLower, c3.toLower, c4.toLower, c5.toLower,
          c6.toLower] = [':', ':', 'f', 'f', 'f', 'f', ':'] := h_head
      simp only [List.cons.injEq, and_true] at h_chars
      obtain ⟨h0, h1, h2, h3, h4, h5, h6⟩ := h_chars
      obtain rfl := toLower_colon h0
      obtain rfl := toLower_colon h1
      obtain rfl := toLower_colon h6
      refine ⟨⟨[c2, c3, c4, c5], List.cons_ne_nil _ _, le_rfl, ?_⟩, ?_, ?_, ?_⟩
      · intro c h_c
        simp only [List.mem_cons, List.not_mem_nil, or_false] at h_c
        obtain rfl | rfl | rfl | rfl := h_c
        · exact hex_of_toLower h2
        · exact hex_of_toLower h3
        · exact hex_of_toLower h4
        · exact hex_of_toLower h5
      · simp [toLowerCase, h2, h3, h4, h5]
      · exact h_value.symm
      · intro h_colon
        have h_join : join '.' ((value.drop 7).splitOn '.') = value.drop 7 :=
          join_splitOn (value.drop 7)
        rw [← h_join] at h_colon
        obtain h_eq | ⟨part, h_part, h_c⟩ := mem_join h_colon
        · exact absurd h_eq (by decide)
        · have h_all := List.all_eq_true.mp h_digits part h_part
          rw [digits, Bool.and_eq_true, List.all_eq_true] at h_all
          exact absurd (h_all.2 _ h_c) (by decide)
  · cases h

theorem mapped_text {g : Group} (h : toLowerCase g.text = "ffff".toList) (q : Quad) :
    mapped (':' :: ':' :: (g.text ++ ':' :: q.text)) = some q.text := by
  have h_length : g.text.length = 4 := by
    have h_map := congrArg List.length h
    rwa [toLowerCase, List.length_map] at h_map
  have h_take : (':' :: ':' :: (g.text ++ ':' :: q.text)).take 7 = ':' :: ':' :: (g.text ++ [':']) := by
    rw [List.take_succ_cons, List.take_succ_cons, List.take_append, h_length,
      List.take_of_length_le (by omega)]
    rfl
  have h_drop : (':' :: ':' :: (g.text ++ ':' :: q.text)).drop 7 = q.text := by
    rw [List.drop_succ_cons, List.drop_succ_cons, List.drop_append, h_length,
      List.drop_of_length_le (by omega)]
    rfl
  have h_lower : toLowerCase (':' :: ':' :: (g.text ++ [':'])) = "::ffff:".toList := by
    rw [toLowerCase] at h
    simp only [toLowerCase, List.map_cons, List.map_append, List.map_nil, h]
    decide
  rw [mapped, h_take, h_drop, h_lower, q.split, if_pos ⟨rfl, rfl, by simp [Octet.digits]⟩]

/-- The bytes of a group made of two. -/
theorem group_bytes (a b : UInt8) : UInt8.ofNat ((a.toNat * 256 + b.toNat) >>> 8) = a ∧
    UInt8.ofNat ((a.toNat * 256 + b.toNat) &&& 0xff) = b := by
  have h_a := a.toNat_lt
  have h_b := b.toNat_lt
  have h_low : (a.toNat * 256 + b.toNat) &&& 0xff = (a.toNat * 256 + b.toNat) % 256 :=
    Nat.and_two_pow_sub_one_eq_mod _ 8
  rw [Nat.shiftRight_eq_div_pow, h_low]
  constructor
  · apply UInt8.toNat_inj.mp
    rw [UInt8.toNat_ofNat']
    omega
  · apply UInt8.toNat_inj.mp
    rw [UInt8.toNat_ofNat']
    omega

/-- The address behind `::ffff:`. -/
theorem folded_quad {g : Group} (h : g.value = 0xffff) (q : Quad)
    (h_room : ([] : List Group).length + (Parts.values ⟨[g], some q⟩).length < 8) :
    folded (elidedValues [] ⟨[g], some q⟩) (length_elidedValues h_room) = q.address := by
  have h_values : elidedValues [] ⟨[g], some q⟩ = [0, 0, 0, 0, 0, 0xffff] ++ q.groups := by
    simp [elidedValues, Parts.values, h, Quad.groups]
  have h_mapped : MappedGroups (elidedValues [] ⟨[g], some q⟩) := by
    rw [MappedGroups, h_values]
    rfl
  have h_bytes : q.address.bytes = ((elidedValues [] ⟨[g], some q⟩).drop 6).flatMap
      fun g => [UInt8.ofNat (g >>> 8), UInt8.ofNat (g &&& 0xff)] := by
    obtain ⟨h0, h1⟩ := group_bytes q.o0.value q.o1.value
    obtain ⟨h2, h3⟩ := group_bytes q.o2.value q.o3.value
    rw [h_values]
    show q.address.bytes = [.ofNat (_ >>> 8), .ofNat (_ &&& 0xff), .ofNat (_ >>> 8),
      .ofNat (_ &&& 0xff)]
    rw [h0, h1, h2, h3]
    rfl
  rw [folded, if_pos h_mapped]
  exact Address.ext h_bytes.symm

/-! ### Reading a spelling -/

theorem parseIp_eq (s : Text) : parseIp s =
    if bare s = [] then none
    else if ':' ∈ bare s then
      match mapped (bare s) with
      | some quad => parseDotted quad
      | none => parseIpv6 (bare s)
    else parseDotted (bare s) := rfl

/-- With a colon the text is an IPv6 address. -/
theorem parseIp_colon {s : Text} (h : ':' ∈ bare s) : parseIp s =
    match mapped (bare s) with
    | some quad => parseDotted quad
    | none => parseIpv6 (bare s) := by
  rw [parseIp_eq, if_neg fun h_nil => absurd (h_nil ▸ h) List.not_mem_nil, if_pos h]

/-- Without a dot there is no quad. -/
theorem mapped_dot {value : Text} (h : '.' ∉ value) : mapped value = none := by
  have h_drop : '.' ∉ value.drop 7 := fun h_mem => h (List.mem_of_mem_drop h_mem)
  rw [mapped, List.splitOn_eq_singleton h_drop]
  simp

theorem Parts.colon {p : Parts} (h : p.values.length = 8) : ':' ∈ join ':' p.texts := by
  apply sep_mem_join
  have h_values : p.values.length = p.groups.length + (p.tail.toList.flatMap Quad.groups).length := by
    simp [Parts.values]
  have h_tail : (p.tail.toList.flatMap Quad.groups).length ≤ 2 * p.tail.toList.length := by
    cases p.tail with
    | none => simp
    | some q => simp [Quad.groups]
  have h_one : p.tail.toList.length ≤ 1 := by
    cases p.tail <;> simp
  simp only [Parts.texts, List.length_append, List.length_map]
  omega

theorem elided_dot {before : List Group} {after : Parts} (h_tail : after.tail = none) :
    '.' ∉ join ':' (before.map Group.text) ++ ':' :: ':' :: join ':' after.texts := by
  intro h
  have h_before : before.map Group.text = Parts.texts ⟨before, none⟩ :=
    (texts_of_tail (p := ⟨before, none⟩) rfl).symm
  rw [h_before] at h
  simp only [List.mem_append, List.mem_cons] at h
  obtain h | h | h | h := h
  · exact Parts.dot rfl h
  · exact absurd h (by decide)
  · exact absurd h (by decide)
  · exact Parts.dot h_tail h

/-- Spelled with groups alone, the address is read with the bytes of its groups. -/
theorem parseIp_full {s : Text} {parts : Parts} {h : parts.values.length = 8}
    (h_bare : bare s = (Spelling.full parts h).text) (h_tail : parts.tail = none) :
    parseIp s = some (.ofGroups parts.values h) := by
  rw [Spelling.text] at h_bare
  rw [parseIp_colon (h_bare ▸ Parts.colon h), h_bare, mapped_dot (Parts.dot h_tail)]
  exact parseIpv6_full h_tail h

theorem parseIp_elided {s : Text} {before : List Group} {after : Parts}
    {h : before.length + after.values.length < 8}
    (h_bare : bare s = (Spelling.elided before after h).text) (h_tail : after.tail = none) :
    parseIp s = some (.ofGroups (elidedValues before after) (length_elidedValues h)) := by
  rw [Spelling.text] at h_bare
  rw [parseIp_colon (h_bare ▸ by simp), h_bare, mapped_dot (elided_dot h_tail)]
  exact parseIpv6_elided h_tail h

/-- Some spellings are read as their address. -/
theorem parseIp_of_read {s : Text} {sp : Spelling} (h : bare s = sp.text) (h_read : sp.Read) :
    parseIp s = some sp.address := by
  cases sp with
  | dotted q =>
    rw [Spelling.text] at h
    have h_some : q.text ≠ [] := fun h_nil => absurd (h_nil ▸ q.dot) List.not_mem_nil
    rw [parseIp_eq, h, if_neg h_some, if_neg q.colon]
    exact parseDotted_text q
  | full parts h_eight =>
    obtain ⟨h_tail, h_mapped⟩ := h_read
    rw [parseIp_full h h_tail, Spelling.address, folded, if_neg h_mapped]
  | elided before after h_room =>
    obtain ⟨groups, tail⟩ := after
    cases tail with
    | none =>
      have h_mapped : ¬MappedGroups (elidedValues before ⟨groups, none⟩) := h_read
      rw [parseIp_elided h rfl, Spelling.address, folded, if_neg h_mapped]
    | some q =>
      obtain ⟨rfl, g, rfl, h_g⟩ := h_read
      have h_text : bare s = ':' :: ':' :: (g.text ++ ':' :: q.text) := by
        rw [h, Spelling.text]
        simp [Parts.texts]
      rw [parseIp_colon (h_text ▸ List.mem_cons_self), h_text, mapped_text h_g]
      show parseDotted q.text = _
      rw [parseDotted_text, Spelling.address, folded_quad (value_of_ffff h_g) q h_room]

/-- A quad in another place keeps the text from being read. -/
theorem parseIp_tail {s : Text} (h_colon : ':' ∈ bare s) (h_dot : '.' ∈ bare s)
    (h_mapped : mapped (bare s) = none) : parseIp s = none := by
  rw [parseIp_colon h_colon, h_mapped]
  exact parseIpv6_dot h_dot

theorem length_ofGroups {values : List ℕ} (h : values.length = 8) :
    (Address.ofGroups values h).bytes.length = 16 := by
  simp [Address.ofGroups, h]

/-- A mapped address spelled with groups alone is read with all its bytes. -/
theorem folded_ne {values : List ℕ} (h : values.length = 8) (h_mapped : MappedGroups values) :
    some (Address.ofGroups values h) ≠ some (folded values h) := by
  intro h_eq
  have h_length := congrArg (·.bytes.length) (Option.some.inj h_eq)
  simp [folded, if_pos h_mapped, embedded, length_ofGroups, h] at h_length

/-- No group in front of the first colon, so that `::` is not what the text begins with. -/
theorem mapped_full {parts : Parts} (h : parts.values.length = 8) :
    mapped (join ':' parts.texts) = none := by
  rw [Option.eq_none_iff_forall_not_mem]
  intro rest h_mapped
  obtain ⟨g, -, h_value, -⟩ := mapped_eq_some h_mapped
  have h_texts : parts.texts ≠ [] := by
    intro h_nil
    have h_colon := Parts.colon h
    rw [h_nil] at h_colon
    exact List.not_mem_nil h_colon
  have h_split := splitOn_join h_texts fun _ h_part => (Parts.plain h_part).2
  rw [h_value] at h_split
  have h_empty : [] ∈ parts.texts := by
    rw [← h_split, List.splitOn_cons_eq_if_modifyHead]
    exact List.mem_cons_self
  exact (Parts.plain h_empty).1 rfl

theorem mapped_elided {before : List Group} {after : Parts} {rest : Text}
    (h : mapped (join ':' (before.map Group.text) ++ ':' :: ':' :: join ':' after.texts) = some rest)
    (h_some : after.texts ≠ []) :
    before = [] ∧ ∃ g : Group, toLowerCase g.text = "ffff".toList ∧ after.texts = [g.text, rest] := by
  obtain ⟨g, h_g, h_value, h_rest⟩ := mapped_eq_some h
  have h_before : join ':' (before.map Group.text) = [] := by
    have h_split := congrArg (splitDouble ':') h_value
    rw [splitDouble_join_append (plain_groups before), splitDouble, if_pos ⟨rfl, rfl⟩] at h_split
    exact (List.cons.inj h_split).1
  have h_nil : before.map Group.text = [] := by
    rw [← groupTexts_join (plain_groups before), h_before]
    rfl
  rw [h_before, List.nil_append] at h_value
  have h_after : join ':' after.texts = g.text ++ ':' :: rest :=
    (List.cons.inj (List.cons.inj h_value).2).2
  refine ⟨List.map_eq_nil_iff.mp h_nil, g, h_g, ?_⟩
  rw [← splitOn_join h_some fun _ h_part => (Parts.plain h_part).2, h_after,
    List.splitOn_append_cons_self_of_not_mem g.plain.1.2, List.splitOn_eq_singleton h_rest]

theorem Parts.tail_dot {p : Parts} {q : Quad} (h : p.tail = some q) : '.' ∈ join ':' p.texts := by
  have h_mem : q.text ∈ p.texts := by
    rw [Parts.texts, h]
    exact List.mem_append_right _ List.mem_cons_self
  obtain ⟨pre, post, h_texts⟩ := List.append_of_mem h_mem
  rw [h_texts]
  exact part_subset_join pre q.text post q.dot

/-- The others are not. -/
theorem parseIp_of_not_read {s : Text} {sp : Spelling} (h : bare s = sp.text)
    (h_read : ¬sp.Read) : parseIp s ≠ some sp.address := by
  cases sp with
  | dotted q => exact absurd trivial h_read
  | full parts h_eight =>
    by_cases h_tail : parts.tail = none
    · have h_mapped : MappedGroups parts.values := by
        by_contra h_other
        exact h_read ⟨h_tail, h_other⟩
      rw [parseIp_full h h_tail, Spelling.address]
      exact folded_ne h_eight h_mapped
    · obtain ⟨q, h_q⟩ := Option.ne_none_iff_exists'.mp h_tail
      rw [Spelling.text] at h
      rw [parseIp_tail (h ▸ Parts.colon h_eight) (h ▸ Parts.tail_dot h_q) (h ▸ mapped_full h_eight)]
      exact (Option.some_ne_none _).symm
  | elided before after h_room =>
    by_cases h_tail : after.tail = none
    · have h_mapped : MappedGroups (elidedValues before after) := by
        by_contra h_other
        refine h_read ?_
        rw [Spelling.Read, h_tail]
        exact h_other
      rw [parseIp_elided h h_tail, Spelling.address]
      exact folded_ne _ h_mapped
    · obtain ⟨q, h_q⟩ := Option.ne_none_iff_exists'.mp h_tail
      rw [Spelling.text] at h
      have h_texts : after.texts = after.groups.map Group.text ++ [q.text] := by
        rw [Parts.texts, h_q]
        rfl
      have h_none : mapped (bare s) = none := by
        rw [Option.eq_none_iff_forall_not_mem]
        intro rest h_mapped
        rw [h] at h_mapped
        obtain ⟨h_before, g, h_g, h_pair⟩ := mapped_elided h_mapped (by simp [h_texts])
        rw [h_texts] at h_pair
        obtain ⟨h_groups, -⟩ := List.append_inj' (h_pair.trans (List.singleton_append).symm) rfl
        obtain ⟨g', h_group, h_text⟩ := List.map_eq_singleton_iff.mp h_groups
        refine h_read ?_
        rw [Spelling.Read, h_q]
        exact ⟨h_before, g', h_group, h_text ▸ h_g⟩
      rw [parseIp_tail (h ▸ by simp) (h ▸ by simp [Parts.tail_dot h_q]) h_none]
      exact (Option.some_ne_none _).symm

/-- What is read is spelled. -/
theorem spelled_of_parseIp {s : Text} {a : Address} (h : parseIp s = some a) :
    ∃ sp : Spelling, bare s = sp.text := by
  rw [parseIp_eq] at h
  split at h
  · cases h
  · split at h
    · split at h
      · next quad h_mapped =>
        obtain ⟨g, h_g, h_value, -⟩ := mapped_eq_some h_mapped
        obtain ⟨q, rfl, -⟩ := parseDotted_eq_some h
        refine ⟨.elided [] ⟨[g], some q⟩ (by simp [Parts.values, Quad.groups]), ?_⟩
        rw [h_value, Spelling.text]
        simp [Parts.texts]
      · obtain ⟨p, -, h_eight, h_text⟩ | ⟨before, after, -, h_room, h_text⟩ := parseIpv6_eq_some h
        · exact ⟨.full p h_eight, h_text⟩
        · exact ⟨.elided before after h_room, h_text⟩
    · obtain ⟨q, h_text, -⟩ := parseDotted_eq_some h
      exact ⟨.dotted q, h_text⟩

/-! ### Texts and addresses -/

/-- A text that spells an address is read as it, and any other is rejected. -/
structure Honoured (s : Text) : Prop where
  read : ∀ sp : Spelling, bare s = sp.text → parseIp s = some sp.address
  rejected : (∀ sp : Spelling, bare s ≠ sp.text) → parseIp s = none

/-- The spellings of the text are all among those that `parseIp` reads. -/
def ReadText (s : Text) : Prop := ∀ sp : Spelling, bare s = sp.text → sp.Read

/-- **Main result.** The grammar is honoured on the texts that do not write a mapped address with
groups alone, or a quad elsewhere than behind `::ffff:`. -/
theorem honoured_iff (s : Text) : (Honoured s ↔ ReadText s) ∧
    ∀ t (sp sp' : Spelling), ReadText s → ReadText t → bare s = sp.text → bare t = sp'.text →
      sp.address = sp'.address → parseIp s = parseIp t := by
  constructor
  · constructor
    · intro h sp h_text
      by_contra h_read
      exact parseIp_of_not_read h_text h_read (h.read sp h_text)
    · intro h
      refine ⟨fun sp h_text => parseIp_of_read h_text (h sp h_text), fun h_none => ?_⟩
      rw [Option.eq_none_iff_forall_not_mem]
      intro a h_a
      obtain ⟨sp, h_text⟩ := spelled_of_parseIp h_a
      exact h_none sp h_text
  · intro t sp sp' h_s h_t h_sp h_sp' h_eq
    rw [parseIp_of_read h_sp (h_s sp h_sp), parseIp_of_read h_sp' (h_t sp' h_sp'), h_eq]

/-- **A mapped address in hexadecimal** keeps its sixteen bytes. -/
theorem hex_mapped_unfolded : ¬∀ s, Honoured s := by
  intro h
  let ffff : Group := ⟨"ffff".toList, by decide, by decide, List.all_eq_true.mp (by decide)⟩
  let high : Group := ⟨"0a00".toList, by decide, by decide, List.all_eq_true.mp (by decide)⟩
  let low : Group := ⟨"0001".toList, by decide, by decide, List.all_eq_true.mp (by decide)⟩
  have h_read := (h "::ffff:0a00:0001".toList).read
    (.elided [] ⟨[ffff, high, low], none⟩ (by decide)) (by decide +kernel)
  exact absurd h_read (by decide +kernel)

end ServerCentral.ClientIp
