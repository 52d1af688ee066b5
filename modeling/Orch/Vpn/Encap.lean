import Mathlib.Algebra.Group.Nat.Defs
import Orch.Failure

namespace Orch.Vpn

abbrev Bytes := List UInt8

/-- The expression `b[lo:hi]`, which panics out of range. -/
def slice (b : Bytes) (lo hi : Nat) : Option Bytes :=
  if lo ≤ hi ∧ hi ≤ b.length then some ((b.drop lo).take (hi - lo)) else none

def putUint32 (v : UInt32) : Bytes :=
  [.ofNat (v.toNat / 2 ^ 24), .ofNat (v.toNat / 2 ^ 16), .ofNat (v.toNat / 2 ^ 8), .ofNat v.toNat]

/-- `BigEndian.Uint32`, which panics on fewer than four bytes. -/
def uint32 : Bytes → Option UInt32
  | b₀ :: b₁ :: b₂ :: b₃ :: _ =>
    some (.ofNat (b₀.toNat * 2 ^ 24 + b₁.toNat * 2 ^ 16 + b₂.toNat * 2 ^ 8 + b₃.toNat))
  | _ => none

def encapV0HeaderLen : Nat := 12

/-- The text `ORC0`. -/
def encapV0Magic : Bytes := [0x4f, 0x52, 0x43, 0x30]

def encapV0MsgHeartbeat : UInt8 := 0
def encapV0MsgIPv4Payload : UInt8 := 1
def encapV0MsgHeartbeatACK : UInt8 := 2

/-- `strconv.ParseUint` in base 10, for a type of so many bits. -/
def parseUint (digits : List Char) (bits : Nat) : Option Nat :=
  if digits ≠ [] ∧ digits.all Char.isDigit ∧ Nat.ofDigitChars 10 digits 0 < 2 ^ bits then
    some (Nat.ofDigitChars 10 digits 0)
  else none

/-- The length goes through its decimal digits; one that does not fit panics. -/
def payloadLenUint32 (n : Nat) : Option UInt32 :=
  if n ≥ 2 ^ 32 then none else (parseUint (Nat.toDigits 10 n) 32).map .ofNat

def encodeEncapV0 (msgType : UInt8) (payload : Bytes) : Option Bytes := do
  let length ← payloadLenUint32 payload.length
  return encapV0Magic ++ [0, msgType, 0, 0] ++ putUint32 length ++ payload

/-- Nothing is returned if the decoder panics. -/
def decodeEncapV0 (b : Bytes) : Option (Except Failure (UInt8 × Bytes)) :=
  if b.length < encapV0HeaderLen then return .error (.errorf "encap-v0: packet too short")
  else do
    if (← slice b 0 4) ≠ encapV0Magic then return .error (.errorf "encap-v0: bad magic")
    let version ← b[4]?
    if version ≠ 0 then return .error (.errorf "encap-v0: unsupported version %d" [.number version.toNat])
    let msgType ← b[5]?
    let plen ← uint32 (← slice b 8 12)
    if encapV0HeaderLen + plen.toNat > b.length then return .error (.errorf "encap-v0: payload length out of range")
    let payload ← slice b encapV0HeaderLen (encapV0HeaderLen + plen.toNat)
    return .ok (msgType, payload)

theorem uint32_take : ∀ b : Bytes, uint32 (b.take 4) = uint32 b
  | [] | [_] | [_, _] | [_, _, _] | _ :: _ :: _ :: _ :: _ => rfl

theorem exists_uint32 : ∀ {b : Bytes}, 4 ≤ b.length → ∃ v, uint32 b = some v
  | _ :: _ :: _ :: _ :: _, _ => ⟨_, rfl⟩

theorem uint32_putUint32 (v : UInt32) (rest : Bytes) : uint32 (putUint32 v ++ rest) = some v := by
  have bound := v.toNat_lt
  simp only [putUint32, uint32, List.cons_append, Option.some.injEq, ← UInt32.toNat_inj, UInt32.toNat_ofNat', UInt8.toNat_ofNat']
  omega

theorem putUint32_uint32 {b₀ b₁ b₂ b₃ : UInt8} {v : UInt32} {rest : Bytes}
    (read : uint32 (b₀ :: b₁ :: b₂ :: b₃ :: rest) = some v) : putUint32 v = [b₀, b₁, b₂, b₃] := by
  have := b₀.toNat_lt
  have := b₁.toNat_lt
  have := b₂.toNat_lt
  have := b₃.toNat_lt
  obtain rfl := Option.some.inj read
  simp only [putUint32, List.cons.injEq, and_true, ← UInt8.toNat_inj, UInt8.toNat_ofNat', UInt32.toNat_ofNat']
  omega

variable {payload : Bytes}

theorem encodeEncapV0_eq {msgType : UInt8} (small : payload.length < 2 ^ 32) :
    encodeEncapV0 msgType payload =
      some (encapV0Magic ++ [0, msgType, 0, 0] ++ putUint32 (.ofNat payload.length) ++ payload) := by
  have length : payloadLenUint32 payload.length = some (.ofNat payload.length) := by
    have value : Nat.ofDigitChars 10 (Nat.toDigits 10 payload.length) 0 = payload.length :=
      Nat.ofDigitChars_toDigits (by decide) (by decide)
    have digits : (Nat.toDigits 10 payload.length).all Char.isDigit = true :=
      List.all_eq_true.mpr fun _ => Nat.isDigit_of_mem_toDigits (by decide) (by decide)
    rw [payloadLenUint32, if_neg (Nat.not_le.mpr small), parseUint, value, if_pos ⟨Nat.toDigits_ne_nil, digits, small⟩]
    rfl
  rw [encodeEncapV0, length]
  rfl

variable {b : Bytes} {plen : UInt32}

theorem decodeEncapV0_eq (long : 12 ≤ b.length) (read : uint32 (b.drop 8) = some plen) :
    decodeEncapV0 b = some (
      if b.take 4 ≠ encapV0Magic then .error (.errorf "encap-v0: bad magic")
      else if b[4] ≠ 0 then .error (.errorf "encap-v0: unsupported version %d" [.number b[4].toNat])
      else if (b.drop 12).length < plen.toNat then .error (.errorf "encap-v0: payload length out of range")
      else .ok (b[5], (b.drop 12).take plen.toNat)) := by
  have magic : slice b 0 4 = some (b.take 4) := if_pos ⟨by decide, by omega⟩
  have field : slice b 8 12 = some ((b.drop 8).take 4) := if_pos ⟨by decide, long⟩
  simp only [decodeEncapV0, if_neg (Nat.not_lt.mpr (show encapV0HeaderLen ≤ b.length from long)), magic, field,
    List.getElem?_eq_getElem (show 4 < b.length by omega), List.getElem?_eq_getElem (show 5 < b.length by omega),
    Option.bind_eq_bind, Option.bind_some, uint32_take, read]
  have room : encapV0HeaderLen + plen.toNat > b.length ↔ (b.drop 12).length < plen.toNat := by
    rw [List.length_drop, encapV0HeaderLen]
    omega
  simp only [room]
  split_ifs with bad old out
  · rfl
  · rfl
  · rfl
  · have payload : slice b encapV0HeaderLen (encapV0HeaderLen + plen.toNat) = some ((b.drop 12).take plen.toNat) := by
      rw [slice, if_pos ⟨Nat.le_add_right .., Nat.not_lt.mp (room.not.mpr out)⟩, Nat.add_sub_cancel_left]
      rfl
    rw [payload]
    rfl

/-- The bytes start with the magic, version 0 and a header whose length field
fits in the rest. -/
def WellFramed (b : Bytes) : Prop :=
  b.take 4 = encapV0Magic ∧ b[4]? = some 0 ∧ 12 ≤ b.length ∧
    ∃ plen, uint32 (b.drop 8) = some plen ∧ plen.toNat ≤ (b.drop 12).length

theorem decodeEncapV0_short (short : b.length < 12) :
    decodeEncapV0 b = some (.error (.errorf "encap-v0: packet too short")) := if_pos short

theorem decodeEncapV0_ok_iff {msgType : UInt8} :
    decodeEncapV0 b = some (.ok (msgType, payload)) ↔ b.take 4 = encapV0Magic ∧ b[4]? = some 0 ∧ b[5]? = some msgType ∧
      12 ≤ b.length ∧ ∃ plen, uint32 (b.drop 8) = some plen ∧ plen.toNat ≤ (b.drop 12).length ∧
        payload = (b.drop 12).take plen.toNat := by
  by_cases long : 12 ≤ b.length
  · obtain ⟨plen, read⟩ := exists_uint32 (show 4 ≤ (b.drop 8).length by rw [List.length_drop]; omega)
    rw [decodeEncapV0_eq long read, List.getElem?_eq_getElem (show 4 < b.length by omega),
      List.getElem?_eq_getElem (show 5 < b.length by omega)]
    split_ifs with bad old out
    · simp [bad]
    · simp [old]
    · simp only [read, Option.some.injEq, reduceCtorEq, false_iff]
      rintro ⟨-, -, -, -, _, rfl, fits, -⟩
      exact absurd fits (Nat.not_le.mpr out)
    · rw [not_not] at bad old
      rw [List.length_drop] at out
      simp [bad, old, long, read, Nat.not_lt.mp out, eq_comm]
  · simp [decodeEncapV0_short (Nat.not_le.mp long), long]

theorem decodeEncapV0_encode {msgType : UInt8} (small : payload.length < 2 ^ 32) :
    ∃ frame, encodeEncapV0 msgType payload = some frame ∧ decodeEncapV0 frame = some (.ok (msgType, payload)) := by
  have whole : (UInt32.ofNat payload.length).toNat = payload.length := by
    rw [UInt32.toNat_ofNat', Nat.mod_eq_of_lt small]
  refine ⟨_, encodeEncapV0_eq small, decodeEncapV0_ok_iff.mpr ⟨rfl, rfl, rfl, ?_, _, uint32_putUint32 .., ?_, ?_⟩⟩
  · simp [encapV0Magic, putUint32]
  · exact Nat.le_of_eq whole
  · rw [whole]
    exact (List.take_length).symm

/-- Frames round-trip, the decoder reads nothing out of range and takes what is
well framed, and what it has taken is encoded as it was but for the reserved
bytes. -/
theorem encap_frames_round_trip :
    (∀ (msgType : UInt8) (payload : Bytes), payload.length < 2 ^ 32 →
      ∃ frame, encodeEncapV0 msgType payload = some frame ∧ decodeEncapV0 frame = some (.ok (msgType, payload))) ∧
    (∀ b : Bytes, decodeEncapV0 b ≠ none ∧ ((∃ found, decodeEncapV0 b = some (.ok found)) ↔ WellFramed b)) ∧
    ∀ (b : Bytes) (msgType : UInt8) (payload : Bytes), decodeEncapV0 b = some (.ok (msgType, payload)) →
      ∃ frame, encodeEncapV0 msgType payload = some frame ∧ frame <+: (b.set 6 0).set 7 0 := by
  refine ⟨fun _ _ => decodeEncapV0_encode, ?_, ?_⟩
  · intro b
    refine ⟨?_, ?_⟩
    · by_cases long : 12 ≤ b.length
      · obtain ⟨plen, read⟩ := exists_uint32 (show 4 ≤ (b.drop 8).length by rw [List.length_drop]; omega)
        rw [decodeEncapV0_eq long read]
        exact nofun
      · rw [decodeEncapV0_short (Nat.not_le.mp long)]
        exact nofun
    · constructor
      · rintro ⟨⟨msgType, payload⟩, decoded⟩
        obtain ⟨magic, version, -, long, plen, read, fits, -⟩ := decodeEncapV0_ok_iff.mp decoded
        exact ⟨magic, version, long, plen, read, fits⟩
      · rintro ⟨magic, version, long, plen, read, fits⟩
        refine ⟨(b[5], _), decodeEncapV0_ok_iff.mpr ⟨magic, version, ?_, long, plen, read, fits, rfl⟩⟩
        exact List.getElem?_eq_getElem (by omega)
  · intro b msgType payload decoded
    obtain ⟨magic, version, kind, long, plen, read, fits, rfl⟩ := decodeEncapV0_ok_iff.mp decoded
    have length : ((b.drop 12).take plen.toNat).length = plen.toNat := List.length_take_of_le fits
    refine ⟨_, encodeEncapV0_eq (by rw [length]; exact plen.toNat_lt), ?_⟩
    rw [length, UInt32.ofNat_toNat]
    match b, long with
    | m₀ :: m₁ :: m₂ :: m₃ :: v :: t :: r₀ :: r₁ :: l₀ :: l₁ :: l₂ :: l₃ :: rest, _ =>
      obtain rfl : v = 0 := Option.some.inj version
      obtain rfl : t = msgType := Option.some.inj kind
      rw [putUint32_uint32 read, ← magic]
      exact (List.prefix_append_right_inj [m₀, m₁, m₂, m₃, 0, t, 0, 0, l₀, l₁, l₂, l₃]).mpr (List.take_prefix ..)

/-- The address of four bytes, as it is printed. -/
def ipString (b : Bytes) : String := ".".intercalate (b.map fun octet => octet.toNat.repr)

/-- Source and destination of a payload whose header looks like that of an IPv4
packet. -/
def summarizeEncapIPv4Payload (b : Bytes) : Option (String × String) :=
  match b with
  | [] => none
  | first :: _ =>
    if b.length < 20 then none
    else if first >>> 4 ≠ 4 then none
    else
      let ihl := (first &&& 0x0f).toNat * 4
      if ihl < 20 ∨ ihl > b.length then none
      else some (ipString ((b.drop 12).take 4), ipString ((b.drop 16).take 4))

def errEncapInvalidIPv4Inner : Failure := .errorf "encap-v0: invalid ipv4 inner"

/-- The calls of an `EncapObserver`, for a datagram of one remote. -/
inductive Observed where
  | invalidFrame (err : Failure) (packetBytes : Nat)
  | heartbeat
  | heartbeatACK
  | ipv4Inner (src dst : String) (inner : Bytes)
  | unknownMessage (msgType : UInt8) (payload : Bytes)
  | ackWriteFailed (err : Failure)

/-- `ack` is what the observer answers to a heartbeat, and `pc` what comes of
writing it, if there is a connection. -/
def handleEncapUDP (pc : Option Check) (ack packet : Bytes) : Option (List Observed) := do
  match ← decodeEncapV0 packet with
  | .error err => return [.invalidFrame err packet.length]
  | .ok (typ, payload) =>
    if typ = encapV0MsgHeartbeat then
      match pc with
      | some (.error err) => return if ack.length > 0 then [.heartbeat, .ackWriteFailed err] else [.heartbeat]
      | _ => return [.heartbeat]
    else if typ = encapV0MsgHeartbeatACK then return [.heartbeatACK]
    else if typ = encapV0MsgIPv4Payload then
      match summarizeEncapIPv4Payload payload with
      | none => return [.invalidFrame errEncapInvalidIPv4Inner packet.length]
      | some (src, dst) => return [.ipv4Inner src dst payload]
    else return [.unknownMessage typ payload]

def isIPv4Packet : Bytes → Bool
  | [] => false
  | first :: _ => first >>> 4 = 4

def decodeIPv4TunnelPayload (frame : Bytes) : Option Bytes :=
  match decodeEncapV0 frame with
  | some (.ok (typ, payload)) => if typ = encapV0MsgIPv4Payload ∧ isIPv4Packet payload then some payload else none
  | _ => none

/-- What a read gives of a packet: a buffer of 65535 bytes holds no more. -/
def buffered (packet : Bytes) : Bytes := packet.take 65535

/-- The frames sent for what is read from the device, where each read comes with
the result of a write after it. -/
def pumpTUNToUDP : List (Except Failure Bytes × Check) → List Bytes
  | [] => []
  | (.error _, _) :: _ => []
  | (.ok packet, written) :: rest =>
    if !isIPv4Packet (buffered packet) then pumpTUNToUDP rest
    else
      match encodeEncapV0 encapV0MsgIPv4Payload (buffered packet) with
      | none => []
      | some frame => frame :: if written.isOk then pumpTUNToUDP rest else []

/-- The packets written for what is received; a failed write is only logged. -/
def pumpUDPToTUN : List (Except Failure Bytes) → List Bytes
  | [] => []
  | .error _ :: _ => []
  | .ok datagram :: rest =>
    match decodeIPv4TunnelPayload (buffered datagram) with
    | none => pumpUDPToTUN rest
    | some payload => payload :: pumpUDPToTUN rest

/-- The header that a packet begins with is of a length IPv4 allows, and all
there. -/
def HeaderWhole (packet : Bytes) : Prop :=
  20 ≤ packet.length ∧ ∀ first, packet.head? = some first →
    20 ≤ (first &&& 0x0f).toNat * 4 ∧ (first &&& 0x0f).toNat * 4 ≤ packet.length

theorem summarizeEncapIPv4Payload_isSome {packet : Bytes} (version : isIPv4Packet packet = true) :
    (summarizeEncapIPv4Payload packet).isSome = true ↔ HeaderWhole packet := by
  cases packet with
  | nil => cases version
  | cons first rest =>
    have four : ¬ first >>> 4 ≠ 4 := not_not.mpr (of_decide_eq_true version)
    simp only [summarizeEncapIPv4Payload, if_neg four, HeaderWhole, List.head?_cons, Option.some.injEq, forall_eq']
    split_ifs with short bad <;> simp only [Option.isSome_none, Option.isSome_some, reduceCtorEq, false_iff, true_iff] <;> omega

theorem mem_pumpTUNToUDP {frame : Bytes} {reads : List (Except Failure Bytes × Check)} (sent : frame ∈ pumpTUNToUDP reads) :
    ∃ read ∈ reads, ∃ packet, read.1 = .ok packet ∧ isIPv4Packet (buffered packet) = true ∧
      encodeEncapV0 encapV0MsgIPv4Payload (buffered packet) = some frame := by
  induction reads with
  | nil => cases sent
  | cons read rest ih =>
    obtain ⟨err | packet, written⟩ := read
    · cases sent
    rw [pumpTUNToUDP] at sent
    split at sent
    · exact List.exists_mem_cons_of_exists (ih sent)
    rename_i version
    rw [Bool.not_eq_true', Bool.not_eq_false] at version
    split at sent
    · cases sent
    · rename_i encoded
      rcases List.mem_cons.mp sent with rfl | sent
      · exact ⟨_, List.mem_cons_self, packet, rfl, version, encoded⟩
      split at sent
      · exact List.exists_mem_cons_of_exists (ih sent)
      · cases sent

theorem mem_pumpUDPToTUN {reads : List (Except Failure Bytes)} (written : payload ∈ pumpUDPToTUN reads) :
    ∃ read ∈ reads, ∃ datagram, read = .ok datagram ∧ decodeIPv4TunnelPayload (buffered datagram) = some payload := by
  induction reads with
  | nil => cases written
  | cons read rest ih =>
    cases read with
    | error err => cases written
    | ok datagram =>
      rw [pumpUDPToTUN] at written
      split at written
      · exact List.exists_mem_cons_of_exists (ih written)
      · rename_i decoded
        rcases List.mem_cons.mp written with rfl | written
        · exact ⟨_, List.mem_cons_self, datagram, rfl, decoded⟩
        · exact List.exists_mem_cons_of_exists (ih written)

theorem decodeIPv4TunnelPayload_iff {frame payload : Bytes} : decodeIPv4TunnelPayload frame = some payload ↔
    decodeEncapV0 frame = some (.ok (encapV0MsgIPv4Payload, payload)) ∧ isIPv4Packet payload = true := by
  unfold decodeIPv4TunnelPayload
  split
  · rename_i typ inner decoded
    rw [decoded]
    simp only [Option.ite_none_right_eq_some, Option.some.injEq, Except.ok.injEq, Prod.mk.injEq]
    constructor
    · rintro ⟨⟨rfl, version⟩, rfl⟩
      exact ⟨⟨rfl, rfl⟩, version⟩
    · rintro ⟨⟨rfl, rfl⟩, version⟩
      exact ⟨⟨rfl, version⟩, rfl⟩
  · rename_i other
    simp only [reduceCtorEq, false_iff, not_and]
    exact fun decoded => absurd decoded (other _ _)

/-- The gateway takes a frame of a packet for one exactly if its header is
whole. -/
theorem handleEncapUDP_inner_iff {pc : Option Check} {ack packet frame : Bytes} (version : isIPv4Packet packet = true)
    (small : packet.length < 2 ^ 32) (encoded : encodeEncapV0 encapV0MsgIPv4Payload packet = some frame) :
    (∃ src dst inner, handleEncapUDP pc ack frame = some [.ipv4Inner src dst inner]) ↔ HeaderWhole packet := by
  obtain ⟨_, same, decoded⟩ := decodeEncapV0_encode small
  obtain rfl := Option.some.inj (encoded.symm.trans same)
  unfold handleEncapUDP
  rw [← summarizeEncapIPv4Payload_isSome version, decoded]
  simp only [Option.bind_eq_bind, Option.bind_some, if_neg (show encapV0MsgIPv4Payload ≠ encapV0MsgHeartbeat by decide),
    if_neg (show encapV0MsgIPv4Payload ≠ encapV0MsgHeartbeatACK by decide), if_true]
  cases summarizeEncapIPv4Payload packet with
  | none => simp
  | some ends => simp

/-- Whatever the device and the network have to offer, the gateway takes every
frame that is sent for a packet, and every packet written to the device passes
its check, exactly if no packet on either side has the version of IPv4 without
a whole header. -/
theorem tunnel_ends_agree_iff (tun udp : Bytes → Prop) :
    ((∀ reads : List (Except Failure Bytes × Check), (∀ read ∈ reads, ∀ packet, read.1 = .ok packet → tun packet) →
        ∀ frame ∈ pumpTUNToUDP reads, ∀ pc ack, ∃ src dst inner,
          handleEncapUDP pc ack frame = some [.ipv4Inner src dst inner]) ∧
      ∀ reads : List (Except Failure Bytes), (∀ datagram, .ok datagram ∈ reads → udp datagram) →
        ∀ payload ∈ pumpUDPToTUN reads, (summarizeEncapIPv4Payload payload).isSome = true) ↔
    (∀ packet, tun packet → isIPv4Packet (buffered packet) = true → HeaderWhole (buffered packet)) ∧
      ∀ datagram payload, udp datagram → decodeEncapV0 (buffered datagram) = some (.ok (encapV0MsgIPv4Payload, payload)) →
        isIPv4Packet payload = true → HeaderWhole payload := by
  have small (packet : Bytes) : (buffered packet).length < 2 ^ 32 := by
    have := List.length_take_le 65535 packet
    rw [buffered]
    omega
  constructor
  · rintro ⟨sends, writes⟩
    refine ⟨?_, ?_⟩
    · intro packet offered version
      obtain ⟨frame, encoded, -⟩ := decodeEncapV0_encode (small packet)
      refine (handleEncapUDP_inner_iff version (small packet) encoded).mp (sends [(.ok packet, .ok ())] ?_ frame ?_ none [])
      · rintro _ (_ | ⟨_, ⟨⟩⟩) _ ⟨⟩
        exact offered
      · simp [pumpTUNToUDP, version, encoded]
    · intro datagram payload offered decoded version
      refine (summarizeEncapIPv4Payload_isSome version).mp (writes [.ok datagram] ?_ payload ?_)
      · rintro _ (_ | ⟨_, ⟨⟩⟩)
        exact offered
      · simp [pumpUDPToTUN, decodeIPv4TunnelPayload_iff.mpr ⟨decoded, version⟩]
  · rintro ⟨packets, payloads⟩
    refine ⟨?_, ?_⟩
    · intro reads offered frame sent pc ack
      obtain ⟨read, inside, packet, got, version, encoded⟩ := mem_pumpTUNToUDP sent
      exact (handleEncapUDP_inner_iff version (small packet) encoded).mpr (packets packet (offered read inside packet got) version)
    · intro reads offered payload written
      obtain ⟨_, inside, datagram, rfl, taken⟩ := mem_pumpUDPToTUN written
      obtain ⟨decoded, version⟩ := decodeIPv4TunnelPayload_iff.mp taken
      exact (summarizeEncapIPv4Payload_isSome version).mpr (payloads datagram payload (offered datagram inside) decoded version)

/-- One byte that gives the version of IPv4 is sent, and refused. -/
theorem tunnel_ends_disagree :
    ∃ frame ∈ pumpTUNToUDP [(.ok [0x45], .ok ())],
      handleEncapUDP none [] frame = some [.invalidFrame errEncapInvalidIPv4Inner 13] := by
  refine ⟨encapV0Magic ++ [0, 1, 0, 0] ++ [0, 0, 0, 1] ++ [0x45], ?_, rfl⟩
  have encoded : encodeEncapV0 encapV0MsgIPv4Payload [0x45] = some _ := encodeEncapV0_eq (by decide)
  simp only [pumpTUNToUDP, buffered, List.take, encoded]
  decide

end Orch.Vpn
