import SingBoxMini.Outbound
import SingBoxMini.Protocol.TcpRequest
import SingBoxMini.Support.Reader
import SingBoxMini.Vless.Users

/-!
# VLESS — Request

How a VLESS request is read from a TLS stream: the version and the id of the user
(`tcp_server::serve`), then the addons, the command and the destination (`vless_server::serve` and
`read_destination`).

* `header` is the format: what a client sends for a user, a command, a port and an address.
* `readRequest_iff`: however the bytes are delivered, exactly what has the format and the id of a
  user is accepted, and the bytes behind it are left for the relay.
-/

namespace SingBoxMini.Vless
open Bytes Protocol

/-- `VERSION` -/
def version : UInt8 := 0

/-- `COMMAND_TCP` -/
def commandTcp : UInt8 := 1

/-- `COMMAND_UDP` -/
def commandUdp : UInt8 := 2

/-! ### Addresses -/

/-- `Ipv4Addr` as `Display` shows it. -/
def showIpv4 (octets : List UInt8) : String :=
  ".".intercalate (octets.map fun octet => toString octet.toNat)

/-- A run of zero segments: where it begins, and its length. -/
structure Span where
  start : Nat := 0
  len : Nat := 0

/-- The longest run of zeros, the first one of that length; with the run that is going on. -/
def zeroSpans (segments : List Nat) : Span × Span :=
  segments.zipIdx.foldl
    (fun (longest, current) (segment, i) =>
      if segment = 0 then
        let current := { start := if current.len = 0 then i else current.start
                         len := current.len + 1 : Span }
        (if current.len > longest.len then current else longest, current)
      else (longest, {}))
    ({}, {})

/-- Segments in hexadecimal, with colons between them. -/
def showSegments (segments : List Nat) : String :=
  ":".intercalate (segments.map fun segment => String.ofList (Nat.toDigits 16 segment))

/-- `Ipv6Addr` as `Display` shows it. -/
def showIpv6 (octets : List UInt8) : String :=
  if octets.take 12 = List.replicate 10 0 ++ [255, 255] then
    "::ffff:" ++ showIpv4 (octets.drop 12)
  else
    let segments := (chunks 2 octets).map ofBeBytes
    let zeroes := (zeroSpans segments).1
    if zeroes.len > 1 then
      showSegments (segments.take zeroes.start) ++ "::" ++
        showSegments (segments.drop (zeroes.start + zeroes.len))
    else showSegments segments

example : showIpv6 [0x20, 0x01, 0x0d, 0xb8, 0, 0, 0, 0, 0, 1, 0, 0, 0, 0, 0, 1] =
    "2001:db8::1:0:0:1" := by decide +kernel

/-! ### The reader -/

/-- `read_u8` -/
def readU8 : Reader String UInt8 := do
  let bytes ← Reader.readExact 1
  return bytes.headD 0

/-- `read_u16` -/
def readU16 : Reader String UInt16 := do
  let bytes ← Reader.readExact 2
  return .ofNat (ofBeBytes bytes)

/-- A domain of `read_destination`, behind its length. -/
def readDomain (length : UInt8) : Reader String String :=
  if length = 0 then .fail "empty VLESS destination domain"
  else do
    let domain ← Reader.readExact length.toNat
    Reader.ofExcept ((fromUtf8 domain).elim (.error "VLESS destination domain is not UTF-8") .ok)

/-- The host of `read_destination`, by the type of the address. -/
def readHost (port : UInt16) (kind : UInt8) : Reader String String :=
  if kind = 1 then do
    let octets ← Reader.readExact 4
    return showIpv4 octets
  else if kind = 2 then do
    let length ← readU8
    readDomain length
  else if kind = 3 then do
    let octets ← Reader.readExact 16
    return "[" ++ showIpv6 octets ++ "]"
  else
    .fail ("unsupported VLESS address type " ++ Protocol.hex kind.toUInt64 ++ " after port " ++
      toString port.toNat)

/-- `format!("{host}:{port}")` -/
def hostPort (host : String) (port : UInt16) : String := host ++ ":" ++ toString port.toNat

/-- `read_destination` -/
def readDestination : Reader String String := do
  let port ← readU16
  let kind ← readU8
  let host ← readHost port kind
  return hostPort host port

/-- A request whose user is known. -/
structure Request where
  username : String
  command : UInt8
  destination : String
deriving DecidableEq

/-- `vless_server::serve` up to the command. -/
def serve (username : String) : Reader String Request := do
  let addonsLength ← readU8
  if addonsLength ≠ 0 then do
    let _addons ← Reader.readExact addonsLength.toNat
    .fail "VLESS flow addons are not supported"
  else do
    let command ← readU8
    let destination ← readDestination
    return { username, command, destination }

/-- The bytes of an id. -/
def toUserId (bytes : List UInt8) : UserId := .ofFn fun i => bytes.getD i 0

/-- `tcp_server::serve` after the handshake. -/
def readRequest (users : HashMap UserId String) : Reader String Request := do
  let head ← Reader.readExact 17
  if head.headD 0 ≠ 0 then .fail "unsupported TCP proxy protocol"
  else
    (users.lookup (toUserId head.tail)).elim (.fail "invalid VLESS user") serve

/-! ### The format -/

/-- An address as a client may send it. -/
inductive Address where
  | ipv4 (octets : List UInt8) (length_eq : octets.length = 4)
  | domain (text : String) (nonempty : 0 < len text) (short : len text < 256)
  | ipv6 (octets : List UInt8) (length_eq : octets.length = 16)

/-- The address behind its type. -/
def Address.bytes : Address → List UInt8
  | .ipv4 octets _ => 1 :: octets
  | .domain text _ _ => 2 :: UInt8.ofNat (len text) :: asBytes text
  | .ipv6 octets _ => 3 :: octets

/-- The host of a destination. -/
def Address.host : Address → String
  | .ipv4 octets _ => showIpv4 octets
  | .domain text _ _ => text
  | .ipv6 octets _ => "[" ++ showIpv6 octets ++ "]"

/-- **The format of a request.** -/
def header (id : UserId) (command : UInt8) (port : UInt16) (address : Address) : List UInt8 :=
  0 :: id.toList ++ 0 :: command :: beBytes 2 port.toNat ++ address.bytes

/-! ### What is accepted -/

variable {input rest : List UInt8}

theorem eval_readU8_iff {b : UInt8} : readU8.eval input = some (b, rest) ↔ input = b :: rest := by
  simp only [readU8, Reader.eval_bind, Option.bind_eq_some_iff, Prod.exists,
    Reader.eval_readExact_eq_some_iff]
  constructor
  · rintro ⟨bytes, rest', ⟨rfl, hlength⟩, h⟩
    obtain ⟨b', rfl⟩ := List.length_eq_one_iff.mp hlength
    cases h
    rfl
  · rintro rfl
    exact ⟨[b], rest, ⟨rfl, rfl⟩, rfl⟩

theorem eval_readU16_iff {port : UInt16} :
    readU16.eval input = some (port, rest) ↔ input = beBytes 2 port.toNat ++ rest := by
  simp only [readU16, Reader.eval_bind, Option.bind_eq_some_iff, Prod.exists,
    Reader.eval_readExact_eq_some_iff]
  constructor
  · rintro ⟨bytes, rest', ⟨rfl, hlength⟩, h⟩
    cases h
    have hlt : ofBeBytes bytes < 2 ^ 16 := by
      have := foldl_lt bytes 0
      rw [hlength] at this
      simpa [ofBeBytes] using this
    rw [UInt16.toNat_ofNat', Nat.mod_eq_of_lt hlt, ← hlength, beBytes_ofBeBytes]
  · rintro rfl
    have hvalue : UInt16.ofNat (ofBeBytes (beBytes 2 port.toNat)) = port := by
      have hlt : port.toNat < 256 ^ 2 := port.toNat_lt
      rw [ofBeBytes_beBytes, Nat.mod_eq_of_lt hlt, UInt16.ofNat_toNat]
    refine ⟨_, rest, ⟨rfl, length_beBytes _ _⟩, ?_⟩
    rw [hvalue]
    rfl

variable {host : String}

theorem eval_readDomain_iff {length : UInt8} :
    (readDomain length).eval input = some (host, rest) ↔
      input = asBytes host ++ rest ∧ 0 < len host ∧ len host = length.toNat := by
  rw [readDomain]
  split_ifs with hzero
  · subst hzero
    simp only [Reader.eval, reduceCtorEq, false_iff]
    rintro ⟨-, hpos, hlength⟩
    exact absurd hlength (Nat.ne_of_gt hpos)
  · have hpos : length.toNat ≠ 0 := fun h => hzero (UInt8.toNat_inj.mp h)
    simp only [Reader.eval_bind, Option.bind_eq_some_iff, Prod.exists,
      Reader.eval_readExact_eq_some_iff]
    constructor
    · rintro ⟨bytes, rest', ⟨rfl, hlength⟩, h⟩
      cases hutf8 : fromUtf8 bytes with
      | none =>
          rw [hutf8] at h
          cases h
      | some text =>
          rw [hutf8] at h
          cases h
          rw [len, fromUtf8_eq_some_iff.mp hutf8]
          exact ⟨rfl, by omega, hlength⟩
    · rintro ⟨rfl, -, hlength⟩
      refine ⟨asBytes host, rest, ⟨rfl, hlength⟩, ?_⟩
      rw [fromUtf8_asBytes]
      rfl

theorem eval_octets_iff {n : Nat} {show' : List UInt8 → String} :
    (do let octets ← Reader.readExact n
        return show' octets : Reader String String).eval input = some (host, rest) ↔
      ∃ octets, octets.length = n ∧ input = octets ++ rest ∧ host = show' octets := by
  simp only [Reader.eval_bind, Option.bind_eq_some_iff, Prod.exists,
    Reader.eval_readExact_eq_some_iff]
  constructor
  · rintro ⟨octets, rest', ⟨rfl, hlength⟩, h⟩
    cases h
    exact ⟨octets, hlength, rfl, rfl⟩
  · rintro ⟨octets, hlength, rfl, rfl⟩
    exact ⟨octets, rest, ⟨rfl, hlength⟩, rfl⟩

/-- **The host is the one of an address.** -/
theorem eval_readHost_iff {port : UInt16} {kind : UInt8} :
    (readHost port kind).eval input = some (host, rest) ↔
      ∃ address : Address, kind :: input = address.bytes ++ rest ∧ host = address.host := by
  rw [readHost]
  split_ifs with hv4 hdomain hv6
  · subst hv4
    rw [eval_octets_iff]
    constructor
    · rintro ⟨octets, hlength, rfl, rfl⟩
      exact ⟨.ipv4 octets hlength, rfl, rfl⟩
    · rintro ⟨⟨octets, hlength⟩ | _ | _, hbytes, rfl⟩
      · exact ⟨octets, hlength, List.tail_eq_of_cons_eq hbytes, rfl⟩
      · cases List.head_eq_of_cons_eq hbytes
      · cases List.head_eq_of_cons_eq hbytes
  · subst hdomain
    simp only [Reader.eval_bind, Option.bind_eq_some_iff, Prod.exists, eval_readU8_iff,
      eval_readDomain_iff]
    constructor
    · rintro ⟨length, rest', rfl, rfl, hpos, hlength⟩
      refine ⟨.domain host hpos (hlength ▸ length.toNat_lt), ?_, rfl⟩
      rw [Address.bytes, hlength, UInt8.ofNat_toNat]
      rfl
    · rintro ⟨_ | ⟨text, hpos, hshort⟩ | _, hbytes, rfl⟩
      · cases List.head_eq_of_cons_eq hbytes
      · refine ⟨_, _, List.tail_eq_of_cons_eq hbytes, rfl, hpos, ?_⟩
        rw [UInt8.toNat_ofNat', Nat.mod_eq_of_lt hshort]
      · cases List.head_eq_of_cons_eq hbytes
  · subst hv6
    rw [eval_octets_iff]
    constructor
    · rintro ⟨octets, hlength, rfl, rfl⟩
      exact ⟨.ipv6 octets hlength, rfl, rfl⟩
    · rintro ⟨_ | _ | ⟨octets, hlength⟩, hbytes, rfl⟩
      · cases List.head_eq_of_cons_eq hbytes
      · cases List.head_eq_of_cons_eq hbytes
      · exact ⟨octets, hlength, List.tail_eq_of_cons_eq hbytes, rfl⟩
  · simp only [Reader.eval, reduceCtorEq, false_iff]
    rintro ⟨_ | _ | _, hbytes, -⟩
    · exact hv4 (List.head_eq_of_cons_eq hbytes)
    · exact hdomain (List.head_eq_of_cons_eq hbytes)
    · exact hv6 (List.head_eq_of_cons_eq hbytes)

theorem eval_readDestination_iff {destination : String} :
    readDestination.eval input = some (destination, rest) ↔ ∃ port, ∃ address : Address,
      input = beBytes 2 port.toNat ++ address.bytes ++ rest ∧
        destination = hostPort address.host port := by
  simp only [readDestination, Reader.eval_bind, Option.bind_eq_some_iff, Prod.exists,
    eval_readU16_iff, eval_readU8_iff, eval_readHost_iff]
  constructor
  · rintro ⟨port, _, rfl, kind, _, rfl, host, _, ⟨address, hbytes, rfl⟩, h⟩
    cases h
    exact ⟨port, address, by rw [hbytes, List.append_assoc], rfl⟩
  · rintro ⟨port, address, rfl, rfl⟩
    obtain ⟨kind, bytes, hbytes⟩ : ∃ kind bytes, address.bytes = kind :: bytes := by
      cases address <;> exact ⟨_, _, rfl⟩
    refine ⟨port, _, List.append_assoc _ _ _, kind, bytes ++ rest, by rw [hbytes]; rfl, _, rest,
      ⟨address, by rw [hbytes]; rfl, rfl⟩, rfl⟩

/-- **What follows the id** of a user. -/
theorem eval_serve_iff {username : String} {request : Request} :
    (serve username).eval input = some (request, rest) ↔ ∃ command port, ∃ address : Address,
      input = 0 :: command :: beBytes 2 port.toNat ++ address.bytes ++ rest ∧
        request = ⟨username, command, hostPort address.host port⟩ := by
  simp only [serve, Reader.eval_bind, Option.bind_eq_some_iff, Prod.exists, eval_readU8_iff]
  constructor
  · rintro ⟨addons, input, rfl, h⟩
    split_ifs at h with haddons
    · simp only [Reader.eval_bind, Option.bind_eq_some_iff] at h
      obtain ⟨_, -, h⟩ := h
      cases h
    · rw [not_not] at haddons
      subst haddons
      simp only [Reader.eval_bind, Option.bind_eq_some_iff, Prod.exists, eval_readU8_iff,
        eval_readDestination_iff] at h
      obtain ⟨command, _, rfl, _, _, ⟨port, address, rfl, rfl⟩, h⟩ := h
      cases h
      exact ⟨command, port, address, rfl, rfl⟩
  · rintro ⟨command, port, address, rfl, rfl⟩
    refine ⟨0, _, rfl, ?_⟩
    rw [if_neg (by decide)]
    simp only [Reader.eval_bind, Option.bind_eq_some_iff, Prod.exists, eval_readU8_iff,
      eval_readDestination_iff]
    exact ⟨command, _, rfl, _, rest, ⟨port, address, rfl, rfl⟩, rfl⟩

theorem toUserId_toList (id : UserId) : toUserId id.toList = id := by
  apply Vector.ext
  intro i hi
  simp [toUserId]

theorem toList_toUserId {bytes : List UInt8} (h : bytes.length = 16) :
    (toUserId bytes).toList = bytes := by
  apply List.ext_getElem
  · simp [h]
  · intro i _ hi
    simp [toUserId, hi]

/-- **Whom a request is from**, and what it asks for. -/
theorem eval_readRequest_iff {users : HashMap UserId String} {request : Request} :
    (readRequest users).eval input = some (request, rest) ↔
      ∃ id username command port, ∃ address : Address, users.lookup id = some username ∧
        input = header id command port address ++ rest ∧
          request = ⟨username, command, hostPort address.host port⟩ := by
  simp only [readRequest, Reader.eval_bind, Option.bind_eq_some_iff, Prod.exists,
    Reader.eval_readExact_eq_some_iff]
  constructor
  · rintro ⟨head, _, ⟨rfl, hlength⟩, h⟩
    obtain ⟨v, bytes, rfl⟩ := List.exists_cons_of_length_eq_add_one hlength
    split_ifs at h with hversion
    · cases h
    · obtain rfl : v = 0 := not_not.mp hversion
      cases huser : users.lookup (toUserId bytes) with
      | none =>
          rw [List.tail_cons, huser] at h
          cases h
      | some username =>
          rw [List.tail_cons, huser] at h
          obtain ⟨command, port, address, rfl, rfl⟩ := eval_serve_iff.mp h
          refine ⟨toUserId bytes, username, command, port, address, huser, ?_, rfl⟩
          rw [header, toList_toUserId (Nat.succ.inj hlength)]
          simp
  · rintro ⟨id, username, command, port, address, huser, rfl, rfl⟩
    refine ⟨0 :: id.toList, 0 :: command :: beBytes 2 port.toNat ++ address.bytes ++ rest,
      ⟨by simp [header], by simp⟩, ?_⟩
    rw [List.headD_cons, if_neg (by decide), List.tail_cons, toUserId_toList, huser]
    exact eval_serve_iff.mpr ⟨command, port, address, rfl, rfl⟩

theorem exact_readU8 : readU8.Exact := (Reader.Exact.readExact 1).bind fun _ => .done _

theorem exact_readHost (port : UInt16) (kind : UInt8) : (readHost port kind).Exact := by
  rw [readHost]
  split_ifs
  · exact (Reader.Exact.readExact 4).bind fun _ => .done _
  · refine exact_readU8.bind fun length => ?_
    rw [readDomain]
    split_ifs
    · exact .fail _
    · refine (Reader.Exact.readExact _).bind fun domain => ?_
      cases fromUtf8 domain
      · exact .fail _
      · exact .done _
  · exact (Reader.Exact.readExact 16).bind fun _ => .done _
  · exact .fail _

/-- No read of a request depends on how the bytes are delivered. -/
theorem exact_readRequest (users : HashMap UserId String) : (readRequest users).Exact := by
  refine (Reader.Exact.readExact 17).bind fun head => ?_
  split_ifs
  · exact .fail _
  · cases users.lookup (toUserId head.tail) with
    | none => exact .fail _
    | some username =>
        refine exact_readU8.bind fun addonsLength => ?_
        split_ifs
        · exact (Reader.Exact.readExact _).bind fun _ => .fail _
        · refine exact_readU8.bind fun command => .bind ?_ fun _ => .done _
          refine ((Reader.Exact.readExact 2).bind fun _ => .done _).bind fun port => ?_
          exact exact_readU8.bind fun kind => (exact_readHost port kind).bind fun _ => .done _

/-- **What is accepted as a VLESS request.**  However a stream is delivered, and whether it goes on
or not: a request is read from it exactly if it begins with the header of a client whose id is in
the table; the request has the name found under that id, the command, and the host and the port of
the header; and the bytes behind the header, all of them and no others, are left for the relay. -/
theorem readRequest_iff (users : HashMap UserId String) (finished : Bool)
    (chunks : List (List UInt8)) (request : Request) (rest : List UInt8) :
    ((readRequest users).run finished chunks).value = some (request, rest) ↔
      ∃ id username command port, ∃ address : Address, users.lookup id = some username ∧
        chunks.flatten = header id command port address ++ rest ∧
          request = ⟨username, command, hostPort address.host port⟩ := by
  rw [(exact_readRequest users).value_run]
  exact eval_readRequest_iff

end SingBoxMini.Vless
