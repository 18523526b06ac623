import ServerCentral.Auth.Store
import ServerCentral.Framework.Doubles
import ServerCentral.Framework.LeadingBits
import ServerCentral.Framework.Splitting

/-!
# Who a request came from

The server sits behind reverse proxies, and takes the client's address from a header when the
direct peer is one of them. Texts are lists of characters. An `Address` carries its family, a
`Cidr` that its prefix is no longer than its address.
-/

open Framework

namespace ServerCentral.ClientIp

open Auth (isSpace)

abbrev Text := List Char

/-! ### Text -/

def trim (text : Text) : Text := ((text.dropWhile isSpace).reverse.dropWhile isSpace).reverse

/-- Letters of header names are ASCII. -/
def toLowerCase (text : Text) : Text := text.map Char.toLower

/-- Without one `opening` in front and one `closing` at the end, each where it is there. -/
def unwrap (opening closing : Char) (text : Text) : Text :=
  let text := if text.head? = some opening then text.tail else text
  if text.getLast? = some closing then text.dropLast else text

/-- `\d+` -/
def digits (text : Text) : Bool := text ≠ [] && text.all (isDigitOf 10)

/-! ### Addresses -/

@[ext]
structure Address where
  bytes : List UInt8
  family : bytes.length = 4 ∨ bytes.length = 16
  deriving DecidableEq, Repr

namespace Address

def width (a : Address) : ℕ := 8 * a.bytes.length

/-- The bytes of eight groups of sixteen bits. -/
def ofGroups (groups : List ℕ) (h : groups.length = 8) : Address where
  bytes := groups.flatMap fun g => [.ofNat (g >>> 8), .ofNat (g &&& 0xff)]
  family := by simp [h]

end Address

def octet (part : Text) : Option UInt8 :=
  if digits part ∧ part.length ≤ 3 then
    let n := readDigits 10 part
    if n > 255 then none else some (.ofNat n)
  else none

/-- The IPv4 part of `parseIp`. -/
def parseDotted (value : Text) : Option Address :=
  match value.splitOn '.' with
  | [p0, p1, p2, p3] => do
    let b0 ← octet p0
    let b1 ← octet p1
    let b2 ← octet p2
    let b3 ← octet p3
    some ⟨[b0, b1, b2, b3], .inl rfl⟩
  | _ => none

/-- `/^[0-9a-f]{1,4}$/i`, and the number in the group. -/
def hexGroup (group : Text) : Option ℕ :=
  if group ≠ [] ∧ group.length ≤ 4 ∧ group.all (isDigitOf 16) then some (readDigits 16 group)
  else none

def groupTexts (half : Text) : List Text := if half = [] then [] else half.splitOn ':'

def parseIpv6 (value : Text) : Option Address :=
  match splitDouble ':' value with
  | [whole] => do
    let groups ← (groupTexts whole).mapM hexGroup
    if h : groups.length = 8 then some (.ofGroups groups h) else none
  | [head, tail] => do
    let groups ← (groupTexts head).mapM hexGroup
    let tailGroups ← (groupTexts tail).mapM hexGroup
    let zeros := 8 - groups.length - tailGroups.length
    if h : zeros < 1 then none
    else some (.ofGroups (groups ++ List.replicate zeros 0 ++ tailGroups) (by simp; omega))
  | _ => none

/-- `/^::ffff:(\d+\.\d+\.\d+\.\d+)$/i` -/
def mapped (value : Text) : Option Text :=
  let parts := (value.drop 7).splitOn '.'
  if toLowerCase (value.take 7) = "::ffff:".toList ∧ parts.length = 4 ∧ parts.all digits then
    some (value.drop 7)
  else none

def parseIp (text : Text) : Option Address :=
  let value := unwrap '[' ']' (trim text)
  if value = [] then none
  else if ':' ∈ value then
    match mapped value with
    -- The source calls itself here: a dotted quad has no blank, bracket or colon to look at.
    | some quad => parseDotted quad
    | none => parseIpv6 value
  else parseDotted value

/-! ### Trusted proxies -/

structure Cidr where
  address : Address
  bits : ℕ
  header : Option Text
  within : bits ≤ address.width
  deriving DecidableEq, Repr

/-- `Number(text)` -/
def toNumber (text : Text) : Number :=
  let text := trim text
  if text = [] then .finite 0 else numeral text

def parseCidr (entry : Text) : Option Cidr :=
  match splitLast '/' entry with
  | none => (parseIp entry).map fun address => ⟨address, address.width, none, le_rfl⟩
  | some (address, length) =>
    (parseIp address).bind fun address =>
      (toNumber length).whole.bind fun bits =>
        if h : bits < 0 ∨ bits > address.width then none
        else some ⟨address, bits.toNat, none, by omega⟩

inductive TrustedProxyEntry where
  | address (text : Text)
  | withHeader (text : Text) (header : Option Text)
  deriving DecidableEq, Repr

def TrustedProxyEntry.text : TrustedProxyEntry → Text
  | .address text => text
  | .withHeader text _ => text

def TrustedProxyEntry.headerName : TrustedProxyEntry → Option Text
  | .address _ => none
  | .withHeader _ header => header.map fun h => toLowerCase (trim h)

/-- An empty header name is none. -/
def someText (text : Option Text) : Option Text := text.filter (· ≠ [])

def parseTrustedProxies (entries : List TrustedProxyEntry) : List Cidr :=
  entries.filterMap fun entry =>
    (parseCidr entry.text).map fun cidr =>
      match someText entry.headerName with
      | some header => { cidr with header := some header }
      | none => cidr

def parseTrustedProxiesEnv (value : Text) : List TrustedProxyEntry :=
  (value.splitOn ',').filterMap fun raw =>
    let entry := trim raw
    if entry = [] then none
    else match splitFirst '=' entry with
      | none => some (.address entry)
      | some (address, header) => some (.withHeader (trim address) (some (trim header)))

def inCidr (ip : Address) (cidr : Cidr) : Bool :=
  if ip.bytes.length ≠ cidr.address.bytes.length then false
  else
    let wholeBytes := cidr.bits >>> 3
    if (List.range wholeBytes).any fun i => ip.bytes[i]? ≠ cidr.address.bytes[i]? then false
    else
      let rest := cidr.bits &&& 7
      rest = 0 ∨ ip.bytes[wholeBytes]?.getD 0 &&& leadingMask rest =
        cidr.address.bytes[wholeBytes]?.getD 0 &&& leadingMask rest

def matchTrusted (ip : Option Address) (trusted : List Cidr) : Option Cidr :=
  ip.bind fun ip => trusted.find? (inCidr ip)

def isTrusted (ip : Option Address) (trusted : List Cidr) : Bool := (matchTrusted ip trusted).isSome

def headerForPeer (peer : Option Text) (trusted : List Cidr) (fallback : Text) : Text :=
  ((matchTrusted (peer.bind parseIp) trusted).bind Cidr.header).getD fallback

/-! ### Writing an address -/

def groupsOf : List UInt8 → List ℕ
  | high :: low :: bytes => (high.toNat <<< 8 ||| low.toNat) :: groupsOf bytes
  | _ => []

structure Run where
  start : ℕ
  length : ℕ

/-- One round of the loop at the group `i` is up to; it goes on behind a run it has seen. -/
def runStep (groups : List ℕ) : ℕ × Run → ℕ → ℕ × Run
  | (i, best), k =>
    if k < i then (i, best)
    else
      let run := ((groups.drop k).takeWhile (· = 0)).length
      if run = 0 then (k + 1, best)
      else (k + run, if run > best.length then ⟨k, run⟩ else best)

/-- The longest run of zero groups, the earliest on a tie. -/
def longestRun (groups : List ℕ) : Run := ((List.range 8).foldl (runStep groups) (0, ⟨0, 0⟩)).2

def format (address : Address) : Text :=
  if address.bytes.length = 4 then join '.' (address.bytes.map fun b => Nat.toDigits 10 b.toNat)
  else
    let groups := groupsOf address.bytes
    let best := longestRun groups
    let hex := groups.map (Nat.toDigits 16)
    if best.length < 2 then join ':' hex
    else join ':' (hex.take best.start) ++ "::".toList ++
      join ':' (hex.drop (best.start + best.length))

/-! ### The forwarded chain -/

/-- `/^\[([^\]]+)\](?::\d+)?$/` -/
def bracketed : Text → Option Text
  | '[' :: rest =>
    match splitFirst ']' rest with
    | some (inner, port) =>
      if inner ≠ [] ∧ (port = [] ∨ port.head? = some ':' ∧ digits port.tail) then some inner
      else none
    | none => none
  | _ => none

def stripPort (value : Text) : Text :=
  let trimmed := trim value
  match bracketed trimmed with
  | some inner => inner
  | none =>
    match trimmed.splitOn ':' with
    | [host, port] => if digits port then host else trimmed
    | _ => trimmed

/-- The address behind `for=`. -/
def forwardedFor (param : Text) : Option Text :=
  (splitFirst '=' param).bind fun (name, value) =>
    if toLowerCase (trim name) = "for".toList then
      some (stripPort (unwrap '"' '"' (trim value)))
    else none

def parseForwardedChain (headerName value : Text) : List Text :=
  if toLowerCase (trim headerName) ≠ "forwarded".toList then (value.splitOn ',').map stripPort
  else (value.splitOn ',').flatMap fun element => (element.splitOn ';').filterMap forwardedFor

/-- The address in its canonical form, or the text itself where it is none. -/
def peerText (peer : Text) : Text :=
  match parseIp peer with
  | some bytes => format bytes
  | none => peer

/-- One entry of the chain: a hop that is no trusted proxy. -/
def untrustedHop (trusted : List Cidr) (entry : Text) : Option Text :=
  match parseIp entry with
  | none => none
  | some bytes => if isTrusted (some bytes) trusted then none else some (format bytes)

def resolveClientIp (peer forwardedValue : Option Text) (trusted : List Cidr)
    (headerName : Text) : Option Text :=
  match someText forwardedValue with
  | none => peer.map peerText
  | some value =>
    if trusted = [] ∨ isTrusted (peer.bind parseIp) trusted = false then peer.map peerText
    else
      -- From right to left.
      ((parseForwardedChain headerName value).reverse.findSome? (untrustedHop trusted)).or
        (peer.map peerText)

/-- The header is the one that the proxy in front of this request writes. -/
def clientIp (peer : Option Text) (headers : Text → Option Text) (trusted : List Cidr)
    (forwardedHeader : Text) : Option Text :=
  let header := headerForPeer peer trusted forwardedHeader
  resolveClientIp peer (headers header) trusted header

example : resolveClientIp (some "127.0.0.1".toList)
    (some "for=1.2.3.4, for=\"[2001:db8::1]:443\", for=10.42.0.7".toList)
    (parseTrustedProxies [.address "127.0.0.1".toList, .address "10.42.0.0/16".toList])
    "Forwarded".toList = some "2001:db8::1".toList := by decide +kernel

end ServerCentral.ClientIp
