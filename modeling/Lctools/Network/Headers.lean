import Lctools.Network.Slice

/-! # What `slice_packet` makes of the headers

The numbers of both headers are converted in place. Of a frame whose headers are as long
as they have to be, every other byte stays as it was captured.
-/

namespace Lctools.Network

open ByteMemory

/-! ## Meaning -/

/-- The numbers of `struct sniff_ip` that are converted. -/
def ipNumbers : List Field := [ipLen, ipId, ipSum]

/-- The numbers of `struct sniff_tcp` that are converted. -/
def tcpNumbers : List Field := [thSport, thDport, thSeq, thAck, thWin, thSum, thUrp]

/-- The byte at `index` belongs to one of the fields of the record at `base`. -/
def Within (base : ℕ) (fields : List Field) (index : ℕ) : Prop :=
  ∃ field ∈ fields, base + field.offset ≤ index ∧ index < base + field.offset + field.width

/-- The number that a field has on the wire, most significant byte first. -/
def wireNumber (frame : List UInt8) (base : ℕ) (field : Field) : ℕ :=
  value (bytesAt frame (base + field.offset) field.width).reverse

/-- The bytes of a field as they are, as the machine reads them. -/
def hostNumber (frame : List UInt8) (base : ℕ) (field : Field) : ℕ :=
  value (bytesAt frame (base + field.offset) field.width)

/-- The session between the two ends of the packet in the frame. -/
def wireSession (frame : List UInt8) : TcpSession where
  flag := sessionStart
  ipSrc := hostNumber frame sniffSizeEthernet ipSrc
  sport := wireNumber frame (tcpStart frame) thSport
  ipDes := hostNumber frame sniffSizeEthernet ipDst
  dport := wireNumber frame (tcpStart frame) thDport

/-- `slice_packet` has converted the numbers of the frame and nothing else, has found the
payload, and has started a session that was not started. -/
structure Converted (frame : List UInt8) (session : TcpSession) (sliced : Sliced) : Prop where
  ip : sliced.pktInfo.ip = sniffSizeEthernet
  tcp : sliced.pktInfo.tcp = tcpStart frame
  ipFields : ∀ field ∈ ipNumbers, fieldAt sliced.memory sliced.pktInfo.ip field =
    .ok (wireNumber frame sniffSizeEthernet field)
  tcpFields : ∀ field ∈ tcpNumbers, fieldAt sliced.memory sliced.pktInfo.tcp field =
    .ok (wireNumber frame (tcpStart frame) field)
  kept : ∀ index, ¬Within sniffSizeEthernet ipNumbers index →
    ¬Within (tcpStart frame) tcpNumbers index → sliced.memory[index]? = frame[index]?
  returned : sliced.payload = some (payloadStart frame)
  payload : sliced.pktInfo.payload = payloadStart frame
  len : sliced.pktInfo.len.toNat = frame.length - payloadStart frame
  session : session.flag = sessionNoInit → sliced.session = wireSession frame

/-! ## The conversions -/

theorem convertAll_kept_wide {base : ℕ} {fields numbers : List Field} {memory after : List UInt8}
    (converts : convertAll base fields memory = .ok after)
    (wide : ∀ field ∈ fields, field.width = 1 ∨ field ∈ numbers) {index : ℕ}
    (outside : ¬Within base numbers index) : after[index]? = memory[index]? := by
  apply convertAll_kept converts
  intro field member
  rcases wide field member with single | listed
  · rw [single, mirror_single]
  · apply mirror_outside
    by_contra inside
    exact outside ⟨field, listed, by omega⟩

theorem fieldAt_eq {memory : List UInt8} {base : ℕ} {field : Field}
    (fits : base + field.offset + field.width ≤ memory.length) :
    fieldAt memory base field =
      .ok (value (bytesAt memory (base + field.offset) field.width)) :=
  if_pos fits

/-! ## The session -/

theorem startSession_fresh {pktInfo : PktInfo} {memory : List UInt8} {session : TcpSession}
    (fresh : session.flag = sessionNoInit) (ip : pktInfo.ip + 20 ≤ memory.length)
    (tcp : pktInfo.tcp + 20 ≤ memory.length) :
    startSession pktInfo memory session = .ok {
      flag := sessionStart
      ipSrc := hostNumber memory pktInfo.ip ipSrc
      sport := hostNumber memory pktInfo.tcp thSport
      ipDes := hostNumber memory pktInfo.ip ipDst
      dport := hostNumber memory pktInfo.tcp thDport } := by
  have source := @fieldAt_eq memory pktInfo.ip ipSrc (by simp only [ipSrc]; omega)
  have destination := @fieldAt_eq memory pktInfo.ip ipDst (by simp only [ipDst]; omega)
  have sport := @fieldAt_eq memory pktInfo.tcp thSport (by simp only [thSport]; omega)
  have dport := @fieldAt_eq memory pktInfo.tcp thDport (by simp only [thDport]; omega)
  rw [startSession, if_pos fresh, Fallible.bind_ok source, Fallible.bind_ok destination,
    Fallible.bind_ok sport, Fallible.bind_ok dport]
  rfl

section Conversion

variable {frame memory last : List UInt8}
  (convertsIp : ntohIp sniffSizeEthernet frame = .ok memory)
  (convertsTcp : ntohTcp (tcpStart frame) memory = .ok last)

include convertsIp in
theorem ntohIp_kept {index : ℕ} (outside : ¬Within sniffSizeEthernet ipNumbers index) :
    memory[index]? = frame[index]? :=
  convertAll_kept_wide convertsIp (by decide) outside

include convertsTcp in
theorem ntohTcp_kept {index : ℕ} (outside : ¬Within (tcpStart frame) tcpNumbers index) :
    last[index]? = memory[index]? :=
  convertAll_kept_wide convertsTcp (by decide) outside

theorem ipNumbers_before {index : ℕ} (inside : Within sniffSizeEthernet ipNumbers index) :
    index < sniffSizeEthernet + 12 := by
  rcases inside with ⟨field, member, _, upper⟩
  have bound : ∀ field ∈ ipNumbers, field.offset + field.width ≤ 12 := by decide
  have last := bound field member
  omega

theorem tcpNumbers_behind {index : ℕ} (inside : Within (tcpStart frame) tcpNumbers index) :
    tcpStart frame ≤ index := by
  rcases inside with ⟨field, _, lower, _⟩
  omega

include convertsIp convertsTcp

theorem ntoh_kept {index : ℕ} (outsideIp : ¬Within sniffSizeEthernet ipNumbers index)
    (outsideTcp : ¬Within (tcpStart frame) tcpNumbers index) : last[index]? = frame[index]? :=
  (ntohTcp_kept convertsTcp outsideTcp).trans (ntohIp_kept convertsIp outsideIp)

theorem bytesAt_ntohIp (long : sniffSizeEthernet + 20 ≤ tcpStart frame) {field : Field}
    (member : field ∈ ipNumbers) :
    bytesAt last (sniffSizeEthernet + field.offset) field.width =
      (bytesAt frame (sniffSizeEthernet + field.offset) field.width).reverse := by
  have listed : ∀ field ∈ ipNumbers, field ∈ [ipVh1, ipTos, ipLen, ipId, ipTtl, ipP, ipSum] ∧
      field.offset + field.width ≤ 12 := by decide
  rw [← bytesAt_convertAll (by decide) convertsIp field (listed field member).1]
  apply bytesAt_congr
  intro index lower upper
  apply ntohTcp_kept convertsTcp
  intro inside
  have behind := tcpNumbers_behind inside
  have bound := (listed field member).2
  omega

theorem bytesAt_ntohTcp (long : sniffSizeEthernet + 20 ≤ tcpStart frame) {field : Field}
    (member : field ∈ tcpNumbers) :
    bytesAt last (tcpStart frame + field.offset) field.width =
      (bytesAt frame (tcpStart frame + field.offset) field.width).reverse := by
  have listed : ∀ field ∈ tcpNumbers,
      field ∈ [thSport, thDport, thSeq, thAck, thOffx2, thFlags, thWin, thSum, thUrp] := by decide
  rw [bytesAt_convertAll (by decide) convertsTcp field (listed field member)]
  congr 1
  apply bytesAt_congr
  intro index lower upper
  apply ntohIp_kept convertsIp
  intro inside
  have before := ipNumbers_before inside
  omega

theorem bytesAt_address (long : sniffSizeEthernet + 20 ≤ tcpStart frame) {field : Field}
    (lower : 12 ≤ field.offset) (upper : field.offset + field.width ≤ 20) :
    bytesAt last (sniffSizeEthernet + field.offset) field.width =
      bytesAt frame (sniffSizeEthernet + field.offset) field.width := by
  apply bytesAt_congr
  intro index behind before
  apply ntoh_kept convertsIp convertsTcp
  · intro inside
    have bound := ipNumbers_before inside
    omega
  · intro inside
    have bound := tcpNumbers_behind inside
    omega

variable (length : last.length = frame.length) (long : sniffSizeEthernet + 20 ≤ tcpStart frame)
  (captured : tcpStart frame + 20 ≤ frame.length)

include length long captured

theorem fieldAt_ntohIp {field : Field} (member : field ∈ ipNumbers) :
    fieldAt last sniffSizeEthernet field = .ok (wireNumber frame sniffSizeEthernet field) := by
  have bound : ∀ field ∈ ipNumbers, field.offset + field.width ≤ 12 := by decide
  have fits := bound field member
  rw [fieldAt_eq (by omega), bytesAt_ntohIp convertsIp convertsTcp long member, wireNumber]

theorem fieldAt_ntohTcp {field : Field} (member : field ∈ tcpNumbers) :
    fieldAt last (tcpStart frame) field = .ok (wireNumber frame (tcpStart frame) field) := by
  have bound : ∀ field ∈ tcpNumbers, field.offset + field.width ≤ 20 := by decide
  have fits := bound field member
  rw [fieldAt_eq (by omega), bytesAt_ntohTcp convertsIp convertsTcp long member, wireNumber]

theorem startSession_converted (pktInfo : PktInfo) {session : TcpSession}
    (fresh : session.flag = sessionNoInit) :
    startSession (located frame pktInfo) last session = .ok (wireSession frame) := by
  have ipFits : (located frame pktInfo).ip + 20 ≤ last.length := by
    show sniffSizeEthernet + 20 ≤ last.length
    omega
  have tcpFits : (located frame pktInfo).tcp + 20 ≤ last.length := by
    show tcpStart frame + 20 ≤ last.length
    omega
  have source := @bytesAt_address _ _ _ convertsIp convertsTcp long ipSrc (by decide) (by decide)
  have destination := @bytesAt_address _ _ _ convertsIp convertsTcp long ipDst (by decide) (by decide)
  have sport := @bytesAt_ntohTcp _ _ _ convertsIp convertsTcp long thSport (by decide)
  have dport := @bytesAt_ntohTcp _ _ _ convertsIp convertsTcp long thDport (by decide)
  rw [startSession_fresh fresh ipFits tcpFits, wireSession]
  simp only [hostNumber, wireNumber, located, source, destination, sport, dport]

end Conversion

/-! ## Every frame with whole headers -/

/-- A frame with whole headers that were captured, and of which at most 65535 bytes were,
is converted. -/
theorem readPacket_converts (pktInfo : PktInfo) (frame : List UInt8) (session : TcpSession)
    (ipLong : 5 ≤ ipWords frame) (tcpLong : 5 ≤ tcpWords frame)
    (captured : payloadStart frame ≤ frame.length) (short : frame.length ≤ 65535) :
    ∃ sliced, readPacket pktInfo frame session = .ok (some sliced) ∧
      Converted frame session sliced := by
  have tcpEnd : tcpStart frame + 20 ≤ frame.length := by
    unfold payloadStart at captured
    omega
  have long : sniffSizeEthernet + 20 ≤ tcpStart frame := by
    unfold tcpStart
    omega
  rcases sliceFrame_converted { pktInfo with len := UInt16.ofNat frame.length } session
    (by omega) tcpEnd with
    ⟨memory, last, started, direction, convertsIp, convertsTcp, length, starts, _, slices⟩
  rw [if_neg (Nat.not_lt_of_le tcpLong)] at slices
  refine ⟨_, readPacket_eq_ok.mpr slices, ?_⟩
  exact {
    ip := rfl
    tcp := rfl
    ipFields := fun _ member =>
      fieldAt_ntohIp convertsIp convertsTcp length long tcpEnd member
    tcpFields := fun _ member =>
      fieldAt_ntohTcp convertsIp convertsTcp length long tcpEnd member
    kept := fun _ outsideIp outsideTcp => ntoh_kept convertsIp convertsTcp outsideIp outsideTcp
    returned := rfl
    payload := rfl
    len := by
      have left := (length_left frame.length (payloadStart frame)).mpr ⟨captured, by omega⟩
      show (UInt16.ofNat frame.length - UInt16.ofNat (payloadStart frame)).toNat = _
      omega
    session := by
      intro fresh
      have recorded := startSession_converted convertsIp convertsTcp length long tcpEnd
        { pktInfo with len := UInt16.ofNat frame.length } fresh
      rw [recorded] at starts
      injection starts with same
      exact same.symm }

/-- A frame with headers of 20 bytes each and a payload of two bytes. -/
def sampleFrame : List UInt8 :=
  List.replicate 14 0xee ++ [0x45, 0, 0, 42, 0x12, 0x34, 0x40, 0, 64, 6, 0xab, 0xcd] ++
    [127, 0, 0, 1, 10, 0, 0, 2] ++ [0x30, 0x39, 0, 80, 1, 2, 3, 4, 5, 6, 7, 8] ++
    [0x50, 0x18, 0x20, 0, 0xfe, 0xdc, 0, 0, 104, 105]

theorem readPacket_converts_sample :
    ∃ sliced, readPacket ⟨0, 0, 0, 0, 0, 0⟩ sampleFrame ⟨0, 0, 0, 0, 0⟩ = .ok (some sliced) ∧
      Converted sampleFrame ⟨0, 0, 0, 0, 0⟩ sliced :=
  readPacket_converts _ sampleFrame _ (by decide) (by decide) (by decide) (by decide)

end Lctools.Network
