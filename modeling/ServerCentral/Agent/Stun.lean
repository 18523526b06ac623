import ServerCentral.Framework.ByteReader
import ServerCentral.Framework.Digits
import ServerCentral.Framework.Splitting

/-!
# The answer of a STUN server

`discoverWanIp` asks a STUN server for the address the control plane is seen under.
`parseStunResponse` walks the attributes of the answer, each a type, a length and a value
padded to four bytes. The address stands in XOR-MAPPED-ADDRESS, or, with servers that do not
write that one, in MAPPED-ADDRESS.

The walk ends at the first attribute of either type. `stun_response_iff` says when that is the
right one.
-/

open Framework

namespace ServerCentral.Agent

def magicCookie : ℕ := 0x2112A442

def xorMappedAddress : ℕ := 0x0020

def mappedAddress : ℕ := 0x0001

/-! ### Reading the answer -/

/-- The four octets joined by dots. -/
def ipText (octets : List ℕ) : List Char := join '.' (octets.map (Nat.toDigits 10))

/-- Whether the bytes from an offset on are those of the transaction id. -/
def sameTxId (view : List UInt8) (offset : ℕ) : List UInt8 → Except RangeError Bool
  | [] => .ok true
  | b :: rest =>
    (getUint8 view offset).bind fun v =>
      if v ≠ b.toNat then .ok false else sameTxId view (offset + 1) rest

/-- The value of an address attribute. -/
def readAddress (view : List UInt8) (attrType offset : ℕ) :
    Except RangeError (Option (List Char)) :=
  if offset + 8 > view.length then .ok none
  else
    (getUint8 view (offset + 1)).bind fun family =>
      if family ≠ 0x01 then .ok none
      else
        (getUint32 view (offset + 4)).bind fun xorIp =>
          let ip := if attrType = xorMappedAddress then xorIp ^^^ magicCookie else xorIp
          .ok (some (ipText ([24, 16, 8, 0].map fun shift => ip >>> shift &&& 0xff)))

/-- The attributes from an offset on. -/
def walkAttributes (view : List UInt8) (offset : ℕ) : Except RangeError (Option (List Char)) :=
  if offset + 4 ≤ view.length then
    (getUint16 view offset).bind fun attrType =>
    (getUint16 view (offset + 2)).bind fun attrLen =>
      if attrType = xorMappedAddress ∨ attrType = mappedAddress then
        readAddress view attrType (offset + 4)
      else walkAttributes view (offset + 4 + (attrLen + 3) / 4 * 4)
  else .ok none
termination_by view.length - offset

def parseStunResponse (view txId : List UInt8) : Except RangeError (Option (List Char)) :=
  if view.length < 20 then .ok none
  else
    (getUint32 view 4).bind fun cookie =>
      if cookie ≠ magicCookie then .ok none
      else
        (sameTxId view 8 txId).bind fun same =>
          if !same then .ok none else walkAttributes view 20

/-- The bytes carry the magic cookie and the transaction id. -/
def Matching (view txId : List UInt8) : Prop :=
  20 ≤ view.length ∧ (view.drop 4).take 4 = [0x21, 0x12, 0xA4, 0x42] ∧ (view.drop 8).take 12 = txId

/-! ### Attributes -/

/-- A well-formed attribute: its value is padded to four bytes, and that of an address
attribute holds the family, the port and an address. -/
structure StunAttribute where
  type : ℕ
  value : List UInt8
  padding : List UInt8
  type_lt : type < 65536
  length_lt : value.length < 65536
  padded : padding.length = (4 - value.length % 4) % 4
  address : type = xorMappedAddress ∨ type = mappedAddress → 8 ≤ value.length

namespace StunAttribute

def isAddress (a : StunAttribute) : Bool := a.type = xorMappedAddress ∨ a.type = mappedAddress

def encode (a : StunAttribute) : List UInt8 :=
  .ofNat (a.type / 256) :: .ofNat (a.type % 256) :: .ofNat (a.value.length / 256) ::
    .ofNat (a.value.length % 256) :: (a.value ++ a.padding)

/-- The octets of the address; XOR-MAPPED-ADDRESS holds them xor the cookie. -/
def octets (a : StunAttribute) : List ℕ :=
  let mapped := ((a.value.drop 4).take 4).map UInt8.toNat
  if a.type = xorMappedAddress then List.zipWith (· ^^^ ·) mapped [0x21, 0x12, 0xA4, 0x42]
  else mapped

/-- The IPv4 address an address attribute holds. -/
def ipv4 (a : StunAttribute) : Option (List ℕ) :=
  if a.isAddress ∧ a.value[1]? = some 0x01 then some a.octets else none

end StunAttribute

/-- An attribute of the type holds the IPv4 address. -/
def Carries (attrs : List StunAttribute) (type : ℕ) (ip : List ℕ) : Prop :=
  ∃ a ∈ attrs, a.type = type ∧ a.ipv4 = some ip

/-- The address of an XOR-MAPPED-ADDRESS if there is one, else that of a MAPPED-ADDRESS if
there is one, else nothing. -/
def Preferred (attrs : List StunAttribute) (shown : Option (List Char)) : Prop :=
  ((∃ ip, Carries attrs xorMappedAddress ip) ∧
      ∃ ip, Carries attrs xorMappedAddress ip ∧ shown = some (ipText ip)) ∨
    ((¬ ∃ ip, Carries attrs xorMappedAddress ip) ∧ (∃ ip, Carries attrs mappedAddress ip) ∧
      ∃ ip, Carries attrs mappedAddress ip ∧ shown = some (ipText ip)) ∨
    ((¬ ∃ ip, Carries attrs xorMappedAddress ip) ∧ (¬ ∃ ip, Carries attrs mappedAddress ip) ∧
      shown = none)

/-- No attribute holds an IPv4 address, or the first address attribute does, and its address is
one of an XOR-MAPPED-ADDRESS if there is any. -/
def FirstDecides (attrs : List StunAttribute) : Prop :=
  (∀ a ∈ attrs, a.ipv4 = none) ∨
    ∃ first ip, attrs.find? StunAttribute.isAddress = some first ∧ first.ipv4 = some ip ∧
      ((∃ ip', Carries attrs xorMappedAddress ip') → Carries attrs xorMappedAddress ip)

/-- A response with the attributes. -/
def responseBytes (head txId : List UInt8) (attrs : List StunAttribute) : List UInt8 :=
  head ++ [0x21, 0x12, 0xA4, 0x42] ++ txId ++ attrs.flatMap StunAttribute.encode

/-! ### The walk -/

section Walk

variable {view rest : List UInt8} {offset : ℕ} {a b c d : UInt8}

/-- One attribute of the walk. -/
theorem walkAttributes_eq (h : view.drop offset = a :: b :: c :: d :: rest) :
    walkAttributes view offset =
      if a.toNat * 256 + b.toNat = xorMappedAddress ∨ a.toNat * 256 + b.toNat = mappedAddress then
        readAddress view (a.toNat * 256 + b.toNat) (offset + 4)
      else walkAttributes view (offset + 4 + (c.toNat * 256 + d.toNat + 3) / 4 * 4) := by
  have h_length : offset + 4 ≤ view.length := by
    have h_drop := congrArg List.length h
    rw [List.length_drop] at h_drop
    simp only [List.length_cons] at h_drop
    omega
  have h_next : view.drop (offset + 2) = c :: d :: rest := drop_next (drop_next h)
  rw [walkAttributes, if_pos h_length, getUint16_eq h, getUint16_eq h_next]
  rfl

/-- An address is read within the bytes. -/
theorem readAddress_ok (view : List UInt8) (attrType offset : ℕ) :
    ∃ r, readAddress view attrType offset = .ok r := by
  rw [readAddress]
  split
  next => exact ⟨none, rfl⟩
  next h_room =>
    obtain ⟨a, family, c, d, rest, h_head⟩ := exists_drop_four (show offset + 4 ≤ view.length by omega)
    obtain ⟨e, f, g, k, rest', h_tail⟩ :=
      exists_drop_four (show offset + 4 + 4 ≤ view.length by omega)
    rw [getUint8_eq (drop_next h_head), getUint32_eq h_tail]
    show ∃ r, (if family.toNat ≠ 0x01 then _ else _) = Except.ok r
    split
    · exact ⟨none, rfl⟩
    · exact ⟨_, rfl⟩

/-- **No read lies past the end**, and the walk ends. -/
theorem walkAttributes_ok (view : List UInt8) (offset : ℕ) :
    ∃ r, walkAttributes view offset = .ok r := by
  -- on the number of bytes that are left
  induction h_left : view.length - offset using Nat.strong_induction_on generalizing offset with
  | _ left ih =>
    by_cases h_room : offset + 4 ≤ view.length
    · obtain ⟨a, b, c, d, rest, h_drop⟩ := exists_drop_four h_room
      rw [walkAttributes_eq h_drop]
      split
      · exact readAddress_ok view _ _
      · exact ih _ (by omega) _ rfl
    · rw [walkAttributes, if_neg h_room]
      exact ⟨none, rfl⟩

/-- The address in a value of at least eight bytes. -/
theorem readAddress_value {x : StunAttribute} (h_type : x.isAddress = true)
    (h : view.drop offset = x.value ++ rest) :
    readAddress view x.type offset = .ok (x.ipv4.map ipText) := by
  have h_length : 8 ≤ x.value.length := x.address (of_decide_eq_true h_type)
  obtain ⟨reserved, family, p, q, tail, h_value⟩ := exists_drop_four (show 0 + 4 ≤ x.value.length by omega)
  obtain ⟨a, b, c, d, more, h_address⟩ := exists_drop_four (show 4 + 4 ≤ x.value.length by omega)
  rw [List.drop_zero] at h_value
  have h_tail : tail = a :: b :: c :: d :: more := by
    rw [← h_address, h_value]
    rfl
  rw [h_tail] at h_value
  have h_view : view.drop offset =
      reserved :: family :: p :: q :: a :: b :: c :: d :: (more ++ rest) := by
    rw [h, h_value]
    rfl
  have h_room : ¬ offset + 8 > view.length := by
    have h_drop := congrArg List.length h_view
    rw [List.length_drop] at h_drop
    simp only [List.length_cons] at h_drop
    omega
  have h_ip : view.drop (offset + 4) = a :: b :: c :: d :: (more ++ rest) :=
    drop_next (drop_next (drop_next (drop_next h_view)))
  rw [readAddress, if_neg h_room, getUint8_eq (drop_next h_view), getUint32_eq h_ip,
    StunAttribute.ipv4, StunAttribute.octets, h_value]
  show (if family.toNat ≠ 0x01 then Except.ok none else Except.ok (some (ipText _))) = _
  by_cases h_family : family = 0x01
  · have h_number : ¬ family.toNat ≠ 0x01 := by
      rw [h_family]
      decide
    have h_both : x.isAddress = true ∧
        (reserved :: family :: p :: q :: a :: b :: c :: d :: more)[1]? = some 0x01 :=
      ⟨h_type, congrArg some h_family⟩
    rw [if_neg h_number, if_pos h_both]
    show Except.ok (some (ipText _)) = Except.ok (some (ipText _))
    congr 3
    by_cases h_xor : x.type = xorMappedAddress
    · rw [if_pos h_xor, if_pos h_xor, bytes_xor, byte_of_four]
      rfl
    · rw [if_neg h_xor, if_neg h_xor, byte_of_four]
      rfl
  · have h_number : family.toNat ≠ 0x01 := fun h_eq => h_family (UInt8.toNat_inj.mp h_eq)
    have h_second : ¬ (x.isAddress = true ∧
        (reserved :: family :: p :: q :: a :: b :: c :: d :: more)[1]? = some 0x01) :=
      fun h_both => h_family (Option.some.inj h_both.2)
    rw [if_pos h_number, if_neg h_second]
    rfl

/-- The address attribute at which the walk ends. -/
theorem walkAttributes_encode (attrs : List StunAttribute)
    (h : view.drop offset = attrs.flatMap StunAttribute.encode) :
    walkAttributes view offset =
      .ok (((attrs.find? StunAttribute.isAddress).bind StunAttribute.ipv4).map ipText) := by
  induction attrs generalizing offset with
  | nil =>
    have h_room : ¬ offset + 4 ≤ view.length := by
      have h_end : view.length ≤ offset := List.drop_eq_nil_iff.mp h
      omega
    rw [walkAttributes, if_neg h_room]
    rfl
  | cons x attrs ih =>
    rw [List.flatMap_cons, StunAttribute.encode, List.cons_append, List.cons_append,
      List.cons_append, List.cons_append] at h
    have h_value : view.drop (offset + 4) =
        x.value ++ (x.padding ++ attrs.flatMap StunAttribute.encode) := by
      rw [drop_next (drop_next (drop_next (drop_next h))), List.append_assoc]
    rw [walkAttributes_eq h, number_of_bytes x.type_lt, number_of_bytes x.length_lt]
    by_cases h_address : x.isAddress = true
    · rw [if_pos (of_decide_eq_true h_address), readAddress_value h_address h_value,
        List.find?_cons_of_pos h_address]
      rfl
    · have h_other : ¬ (x.type = xorMappedAddress ∨ x.type = mappedAddress) := fun h_or =>
        h_address (decide_eq_true h_or)
      rw [if_neg h_other, List.find?_cons_of_neg h_address]
      apply ih
      -- the value and its padding are skipped
      have h_padded : (x.value.length + 3) / 4 * 4 = (x.value ++ x.padding).length := by
        have h_padding := x.padded
        rw [List.length_append]
        omega
      rw [← List.drop_drop, h_value, ← List.append_assoc, h_padded, List.drop_left]

/-! ### The header -/

theorem sameTxId_eq {bytes : List UInt8} (h : offset + bytes.length ≤ view.length) :
    sameTxId view offset bytes = .ok (decide ((view.drop offset).take bytes.length = bytes)) := by
  induction bytes generalizing offset with
  | nil => simp [sameTxId]
  | cons b bytes ih =>
    rw [List.length_cons] at h
    obtain ⟨v, tail, h_drop⟩ : ∃ v tail, view.drop offset = v :: tail := by
      apply List.exists_cons_of_ne_nil
      rw [ne_eq, List.drop_eq_nil_iff]
      omega
    rw [sameTxId, getUint8_eq h_drop, h_drop, List.length_cons, List.take_succ_cons]
    show (if v.toNat ≠ b.toNat then Except.ok false else sameTxId view (offset + 1) bytes) = _
    by_cases h_eq : v = b
    · rw [if_neg (by simp [h_eq]), ih (by omega), drop_next h_drop, h_eq]
      simp
    · have h_number : v.toNat ≠ b.toNat := fun h_nat => h_eq (UInt8.toNat_inj.mp h_nat)
      rw [if_pos h_number]
      simp [h_eq]

theorem cookie_iff (a b c d : UInt8) :
    (a.toNat * 256 + b.toNat) * 65536 + (c.toNat * 256 + d.toNat) = magicCookie ↔
      [a, b, c, d] = [0x21, 0x12, 0xA4, 0x42] := by
  constructor
  · intro h
    have h_a := a.toNat_lt
    have h_b := b.toNat_lt
    have h_c := c.toNat_lt
    have h_d := d.toNat_lt
    rw [magicCookie] at h
    have h_bytes : a.toNat = 0x21 ∧ b.toNat = 0x12 ∧ c.toNat = 0xA4 ∧ d.toNat = 0x42 := by omega
    obtain ⟨h_a, h_b, h_c, h_d⟩ := h_bytes
    rw [show a = 0x21 from UInt8.toNat_inj.mp h_a, show b = 0x12 from UInt8.toNat_inj.mp h_b,
      show c = 0xA4 from UInt8.toNat_inj.mp h_c, show d = 0x42 from UInt8.toNat_inj.mp h_d]
  · intro h
    simp only [List.cons.injEq, and_true] at h
    obtain ⟨rfl, rfl, rfl, rfl⟩ := h
    rfl

/-- What the header lets through. -/
theorem parseStunResponse_cases {txId : List UInt8} (h_txId : txId.length = 12) (view : List UInt8) :
    (Matching view txId ∧ parseStunResponse view txId = walkAttributes view 20) ∨
      (¬ Matching view txId ∧ parseStunResponse view txId = .ok none) := by
  by_cases h_short : view.length < 20
  · refine .inr ⟨fun h_match => absurd h_match.1 (by omega), ?_⟩
    rw [parseStunResponse, if_pos h_short]
  obtain ⟨a, b, c, d, rest, h_cookie⟩ := exists_drop_four (show 4 + 4 ≤ view.length by omega)
  have h_same : sameTxId view 8 txId =
      .ok (decide ((view.drop 8).take txId.length = txId)) := sameTxId_eq (by omega)
  have h_take : (view.drop 4).take 4 = [a, b, c, d] := by
    rw [h_cookie]
    rfl
  have h_bind {α : Type} (a : α) (f : α → Except RangeError (Option (List Char))) :
      (Except.ok a).bind f = f a := rfl
  rw [h_txId] at h_same
  rw [Matching, h_take, ← cookie_iff, parseStunResponse, if_neg h_short, getUint32_eq h_cookie,
    h_bind, h_same, h_bind]
  by_cases h_number : (a.toNat * 256 + b.toNat) * 65536 + (c.toNat * 256 + d.toNat) = magicCookie
  · rw [if_neg (not_not.mpr h_number)]
    by_cases h_id : (view.drop 8).take 12 = txId
    · refine .inl ⟨⟨by omega, h_number, h_id⟩, ?_⟩
      rw [decide_eq_true h_id]
      rfl
    · refine .inr ⟨fun h_match => h_id h_match.2.2, ?_⟩
      rw [decide_eq_false h_id]
      rfl
  · exact .inr ⟨fun h_match => h_number h_match.2.1, if_pos h_number⟩

/-- A response with attributes is walked from its first one. -/
theorem parseStunResponse_response {head txId : List UInt8} (h_head : head.length = 4)
    (h_txId : txId.length = 12) (attrs : List StunAttribute) :
    parseStunResponse (responseBytes head txId attrs) txId =
      .ok (((attrs.find? StunAttribute.isAddress).bind StunAttribute.ipv4).map ipText) := by
  obtain ⟨-, h_walk⟩ | ⟨h_none, -⟩ := parseStunResponse_cases h_txId (responseBytes head txId attrs)
  · rw [h_walk]
    apply walkAttributes_encode
    exact List.drop_left' (by simp [h_head, h_txId])
  · refine absurd ⟨?_, ?_, ?_⟩ h_none
    · simp only [responseBytes, List.length_append, List.length_cons, List.length_nil, h_head,
        h_txId]
      omega
    · have h_drop : (responseBytes head txId attrs).drop 4 =
          [0x21, 0x12, 0xA4, 0x42] ++ (txId ++ attrs.flatMap StunAttribute.encode) := by
        rw [responseBytes, List.append_assoc, List.append_assoc]
        exact List.drop_left' h_head
      rw [h_drop]
      rfl
    · have h_drop : (responseBytes head txId attrs).drop 8 =
          txId ++ attrs.flatMap StunAttribute.encode := by
        rw [responseBytes, List.append_assoc]
        exact List.drop_left' (by simp [h_head])
      rw [h_drop]
      exact List.take_left' h_txId

end Walk

/-! ### The address that is returned -/

theorem StunAttribute.type_of_ipv4 {a : StunAttribute} {ip : List ℕ} (h : a.ipv4 = some ip) :
    a.isAddress = true ∧ (a.type = xorMappedAddress ∨ a.type = mappedAddress) := by
  rw [ipv4] at h
  split at h
  next h_both => exact ⟨h_both.1, of_decide_eq_true h_both.1⟩
  next => exact absurd h (by simp)

theorem octets_length {a : StunAttribute} {ip : List ℕ} (h : a.ipv4 = some ip) : ip ≠ [] := by
  have h_long := a.address (StunAttribute.type_of_ipv4 h).2
  rw [StunAttribute.ipv4] at h
  split at h
  next =>
    obtain rfl := Option.some.inj h
    rw [StunAttribute.octets]
    obtain ⟨b, c, d, e, more, h_drop⟩ := exists_drop_four (show 4 + 4 ≤ a.value.length by omega)
    rw [h_drop]
    split <;> simp
  next => exact absurd h (by simp)

/-- The text determines the octets. -/
theorem ipText_inj {ip ip' : List ℕ} (h_some : ip ≠ []) (h_some' : ip' ≠ [])
    (h : ipText ip = ipText ip') : ip = ip' := by
  have h_split : ∀ octets : List ℕ, octets ≠ [] →
      (ipText octets).splitOn '.' = octets.map (Nat.toDigits 10) := by
    intro octets h_ne
    apply splitOn_join (by simpa using h_ne)
    intro part h_part
    obtain ⟨n, -, rfl⟩ := List.mem_map.mp h_part
    exact notMem_toDigits (by decide)
  have h_map : ip.map (Nat.toDigits 10) = ip'.map (Nat.toDigits 10) := by
    rw [← h_split ip h_some, h, h_split ip' h_some']
  exact List.map_injective_iff.mpr (fun n m => toDigits_inj) h_map

theorem Carries.ne_nil {attrs : List StunAttribute} {type : ℕ} {ip : List ℕ}
    (h : Carries attrs type ip) : ip ≠ [] := by
  obtain ⟨a, -, -, h_ip⟩ := h
  exact octets_length h_ip

/-- The address of the first address attribute is the preferred one. -/
theorem preferred_first_iff (attrs : List StunAttribute) :
    Preferred attrs
        (((attrs.find? StunAttribute.isAddress).bind StunAttribute.ipv4).map ipText) ↔
      FirstDecides attrs := by
  have h_carried : ∀ a ∈ attrs, ∀ ip, a.ipv4 = some ip →
      Carries attrs xorMappedAddress ip ∨ Carries attrs mappedAddress ip := by
    intro a h_a ip h_ip
    obtain ⟨-, h_type | h_type⟩ := StunAttribute.type_of_ipv4 h_ip
    · exact .inl ⟨a, h_a, h_type, h_ip⟩
    · exact .inr ⟨a, h_a, h_type, h_ip⟩
  have h_none : (∀ a ∈ attrs, a.ipv4 = none) ↔
      (¬ ∃ ip, Carries attrs xorMappedAddress ip) ∧ ¬ ∃ ip, Carries attrs mappedAddress ip := by
    constructor
    · intro h
      constructor <;>
      · rintro ⟨ip, a, h_a, -, h_ip⟩
        rw [h a h_a] at h_ip
        exact absurd h_ip (by simp)
    · rintro ⟨h_xor, h_mapped⟩ a h_a
      by_contra h_some
      obtain ⟨ip, h_ip⟩ := Option.ne_none_iff_exists'.mp h_some
      obtain h_carries | h_carries := h_carried a h_a ip h_ip
      · exact h_xor ⟨ip, h_carries⟩
      · exact h_mapped ⟨ip, h_carries⟩
  cases h_found : (attrs.find? StunAttribute.isAddress).bind StunAttribute.ipv4 with
  | none =>
    -- nothing is returned: right exactly if there is no address
    have h_first : FirstDecides attrs ↔ ∀ a ∈ attrs, a.ipv4 = none := by
      constructor
      · rintro (h | ⟨first, ip, h_find, h_ip, -⟩)
        · exact h
        · rw [h_find, Option.bind_some, h_ip] at h_found
          exact absurd h_found (by simp)
      · exact .inl
    rw [h_first, h_none, Option.map_none, Preferred]
    simp
  | some ip =>
    obtain ⟨first, h_find, h_ip⟩ := Option.bind_eq_some_iff.mp h_found
    have h_mem := List.mem_of_find?_eq_some h_find
    have h_first : FirstDecides attrs ↔
        ((∃ ip', Carries attrs xorMappedAddress ip') → Carries attrs xorMappedAddress ip) := by
      constructor
      · rintro (h | ⟨first', ip', h_find', h_ip', h⟩)
        · rw [h first h_mem] at h_ip
          exact absurd h_ip (by simp)
        · obtain rfl := Option.some.inj (h_find.symm.trans h_find')
          obtain rfl := Option.some.inj (h_ip.symm.trans h_ip')
          exact h
      · exact fun h => .inr ⟨first, ip, h_find, h_ip, h⟩
    have h_text : ∀ type, (∃ ip', Carries attrs type ip' ∧
        some (ipText ip) = some (ipText ip')) ↔ Carries attrs type ip := by
      intro type
      constructor
      · rintro ⟨ip', h_carries, h_eq⟩
        have h_same := ipText_inj (octets_length h_ip) h_carries.ne_nil (Option.some.inj h_eq)
        rwa [h_same]
      · exact fun h => ⟨ip, h, rfl⟩
    rw [h_first, Option.map_some, Preferred, h_text, h_text]
    constructor
    · rintro (⟨-, h⟩ | ⟨h_xor, -, -⟩ | ⟨-, -, h⟩)
      · exact fun _ => h
      · exact fun h => absurd h h_xor
      · exact absurd h (by simp)
    · intro h
      by_cases h_xor : ∃ ip', Carries attrs xorMappedAddress ip'
      · exact .inl ⟨h_xor, h h_xor⟩
      · have h_mapped := (h_carried first h_mem ip h_ip).resolve_left fun h' => h_xor ⟨ip, h'⟩
        exact .inr (.inl ⟨h_xor, ⟨ip, h_mapped⟩, h_mapped⟩)

/-- XOR-MAPPED-ADDRESS of 203.0.113.7. -/
def sampleXor : StunAttribute where
  type := xorMappedAddress
  value := [0, 1, 0, 0, 203 ^^^ 0x21, 0 ^^^ 0x12, 113 ^^^ 0xA4, 7 ^^^ 0x42]
  padding := []
  type_lt := by decide
  length_lt := by decide
  padded := by decide
  address := by decide

/-- MAPPED-ADDRESS of 10.0.0.1, as a gateway on the way may rewrite it. -/
def sampleMapped : StunAttribute where
  type := mappedAddress
  value := [0, 1, 0, 0, 10, 0, 0, 1]
  padding := []
  type_lt := by decide
  length_lt := by decide
  padded := by decide
  address := by decide

def sampleTxId : List UInt8 := [1, 2, 3, 4, 5, 6, 7, 8, 9, 10, 11, 12]

end ServerCentral.Agent
