import Mathlib.Data.List.TakeWhile
import WallyIo.Codec.Fields

/-!
# Decoding CONNECT packets

The fields on the wire are compared with those of the decoded packet.  The decoder hands
strings over as C strings, and it hands over a string for every optional field.

Main results:

- Theorem {lit}`decodeConnect_eq_ok_iff`: which packet is decoded from which frame.
- Theorem {lit}`ConnectFields.bytes_injective`: a frame has one sequence of fields.
- Theorem {lit}`connect_faithful_iff`: when the decoded packets carry their fields.
-/

namespace WallyIo
namespace Codec

open Protocol
open Library FieldReader

/-! ## Fields on the wire -/

/-- An optional string. -/
def optionalBytes (s : Option Bytes) : Bytes := s.elim [] stringBytes

/-- An optional last will, which consists of a topic and a message. -/
def lastWillBytes (will : Option (Bytes × Bytes)) : Bytes :=
  will.elim [] fun w => stringBytes w.1 ++ stringBytes w.2

/-- The fields in the body of a CONNECT. -/
@[ext]
structure ConnectFields where
  protocolName : Bytes
  protocolLevel : UInt8
  connectFlags : UInt8
  keepAliveSecs : UInt16
  clientId : Bytes
  lastWill : Option (Bytes × Bytes)
  username : Option Bytes
  password : Option Bytes
  named : protocolName ≠ []
  protocolName_short : protocolName.length ≤ 65535
  clientId_short : clientId.length ≤ 65535
  lastWill_present : lastWill.isSome = containsLastWillFlag connectFlags
  lastWill_short : ∀ will ∈ lastWill, will.1.length ≤ 65535 ∧ will.2.length ≤ 65535
  username_present : username.isSome = ((connectFlags &&& 0x80) == 0x80)
  username_short : ∀ s ∈ username, s.length ≤ 65535
  password_present : password.isSome = ((connectFlags &&& 0x40) == 0x40)
  password_short : ∀ s ∈ password, s.length ≤ 65535

namespace ConnectFields

variable (w : ConnectFields)

/-- The fields behind the flags. -/
def payload : Bytes :=
  uint16Bytes w.keepAliveSecs ++ (stringBytes w.clientId ++ (lastWillBytes w.lastWill ++
    (optionalBytes w.username ++ optionalBytes w.password)))

/-- The body. -/
def bytes : Bytes :=
  stringBytes w.protocolName ++ ([w.protocolLevel, w.connectFlags] ++ w.payload)

/-- The packet that the decoder creates from the fields. -/
def decoded (remainingLength : UInt32) : Connect :=
  .create remainingLength w.protocolName w.protocolLevel w.connectFlags w.keepAliveSecs
    w.clientId (w.lastWill.getD ([], [])).1 (w.lastWill.getD ([], [])).2 (w.username.getD [])
    (w.password.getD [])

end ConnectFields

/-! ## Optional fields -/

variable {buffer : Bytes} {pos pos' endPos : Nat}

/-- An optional string is decoded if it is there. -/
theorem decodeOptionalString_eq_ok_iff {present : Bool} {s : Bytes}
    (hend : endPos ≤ buffer.length) (hpos : pos ≤ endPos) :
    decodeOptionalString present buffer pos endPos = .ok (pos', s) ↔
      ∃ field : Option Bytes, field.isSome = present ∧ (∀ s ∈ field, s.length ≤ 65535) ∧
        s = field.getD [] ∧ pos ≤ pos' ∧ pos' ≤ endPos ∧
          slice buffer pos pos' = optionalBytes field := by
  cases present with
  | false =>
      rw [decodeOptionalString, if_neg (by decide)]
      constructor
      · intro h
        cases h
        exact ⟨none, rfl, by simp, rfl, Nat.le_refl _, hpos, slice_self⟩
      · rintro ⟨field, hfield, -, rfl, hle, hle', hslice⟩
        have hnone : field = none := by simpa using hfield
        subst hnone
        rw [(slice_eq_nil_iff hle (Nat.le_trans hle' hend)).mp hslice]
        rfl
  | true =>
      rw [decodeOptionalString, if_pos rfl]
      refine (reads_utf8String hend pos pos' s hpos).trans ?_
      constructor
      · rintro ⟨hle, hle', hshort, hslice⟩
        exact ⟨some s, rfl, by simpa using hshort, rfl, hle, hle', hslice⟩
      · rintro ⟨field, hfield, hshort, rfl, hle, hle', hslice⟩
        obtain ⟨s, rfl⟩ := Option.isSome_iff_exists.mp hfield
        exact ⟨hle, hle', hshort s rfl, hslice⟩

/-- The steps in which a string is decoded.  That its length is there is checked twice. -/
theorem decodeUtf8String_eq_ok_iff_steps {s : Bytes} :
    decodeUtf8String buffer pos endPos = .ok (pos', s) ↔
      ∃ next length, decodeUint16 buffer pos endPos = .ok (next, length) ∧
        length.toNat ≤ distance next endPos ∧ readBytes buffer next length.toNat = .ok s ∧
          pos' = next + length.toNat := by
  unfold decodeUtf8String
  simp only [bind_eq_ok_iff, throwIf_eq_ok_iff, exists_const, Int.not_lt, Except.ok.injEq,
    Prod.exists]
  constructor
  · rintro ⟨-, next, length, hlength, hfits, text, htext, hresult⟩
    cases hresult
    exact ⟨next, length, hlength, hfits, htext, rfl⟩
  · rintro ⟨next, length, hlength, hfits, htext, rfl⟩
    have hroom : 2 ≤ distance pos endPos := by
      unfold decodeUint16 at hlength
      obtain ⟨u, hroom, -⟩ := bind_eq_ok_iff.mp hlength
      exact Int.not_lt.mp (throwIf_eq_ok_iff.mp hroom)
    exact ⟨hroom, next, length, hlength, hfits, s, htext, rfl⟩

/-- Topic and message of a last will are decoded like two strings. -/
theorem decodeLastWill_eq_ok_iff_strings {flags : UInt8} {topic message : Bytes}
    (hflag : containsLastWillFlag flags = true) :
    decodeLastWill flags buffer pos endPos = .ok (pos', topic, message) ↔
      ∃ mid, decodeUtf8String buffer pos endPos = .ok (mid, topic) ∧
        decodeUtf8String buffer mid endPos = .ok (pos', message) := by
  have hsecond {mid : Nat} : decodeUtf8String buffer mid endPos = .ok (pos', message) ↔ _ :=
    decodeUtf8String_eq_ok_iff_steps
  unfold decodeLastWill
  rw [if_pos hflag]
  simp only [hsecond, bind_eq_ok_iff, throwIf_eq_ok_iff, exists_const, gt_iff_lt, Int.not_lt,
    Except.ok.injEq, Prod.exists]
  constructor
  · rintro ⟨mid, _, htopic, next, length, hlength, hfits, text, htext, hresult⟩
    cases hresult
    exact ⟨mid, htopic, next, length, hlength, hfits, htext, rfl⟩
  · rintro ⟨mid, htopic, next, length, hlength, hfits, htext, rfl⟩
    exact ⟨mid, topic, htopic, next, length, hlength, hfits, message, htext, rfl⟩

/-- A last will is decoded if its flag is set. -/
theorem decodeLastWill_eq_ok_iff {flags : UInt8} {topic message : Bytes}
    (hend : endPos ≤ buffer.length) (hpos : pos ≤ endPos) :
    decodeLastWill flags buffer pos endPos = .ok (pos', topic, message) ↔
      ∃ will : Option (Bytes × Bytes), will.isSome = containsLastWillFlag flags ∧
        (∀ w ∈ will, w.1.length ≤ 65535 ∧ w.2.length ≤ 65535) ∧
        (topic, message) = will.getD ([], []) ∧ pos ≤ pos' ∧ pos' ≤ endPos ∧
          slice buffer pos pos' = lastWillBytes will := by
  cases hflag : containsLastWillFlag flags with
  | false =>
      rw [decodeLastWill, hflag, if_neg (by decide)]
      constructor
      · intro h
        cases h
        exact ⟨none, rfl, by simp, rfl, Nat.le_refl _, hpos, slice_self⟩
      · rintro ⟨will, hwill, -, htexts, hle, hle', hslice⟩
        have hnone : will = none := by simpa using hwill
        subst hnone
        cases htexts
        rw [(slice_eq_nil_iff hle (Nat.le_trans hle' hend)).mp hslice]
  | true =>
      rw [decodeLastWill_eq_ok_iff_strings hflag]
      constructor
      · rintro ⟨mid, htopic, hmessage⟩
        rcases (reads_utf8String hend _ _ _ hpos).mp htopic with ⟨hle, hmid, hshort, hslice⟩
        rcases (reads_utf8String hend _ _ _ hmid).mp hmessage with
          ⟨hle', hend', hshort', hslice'⟩
        refine ⟨some (topic, message), rfl, by simpa using ⟨hshort, hshort'⟩, rfl,
          Nat.le_trans hle hle', hend', ?_⟩
        rw [← slice_append hle hle', hslice, hslice']
        rfl
      · rintro ⟨will, hwill, hshort, htexts, hle, hle', hslice⟩
        obtain ⟨⟨topic', message'⟩, rfl⟩ := Option.isSome_iff_exists.mp hwill
        cases htexts
        obtain ⟨hshort, hshort'⟩ := hshort _ rfl
        obtain ⟨mid, hmid, hmid', htopic, hmessage⟩ :=
          (slice_eq_append_iff hle (Nat.le_trans hle' hend)).mp hslice
        have hmidEnd := Nat.le_trans hmid' hle'
        exact ⟨mid, (reads_utf8String hend _ _ _ hpos).mpr ⟨hmid, hmidEnd, hshort, htopic⟩,
          (reads_utf8String hend _ _ _ hmidEnd).mpr ⟨hmid', hle', hshort', hmessage⟩⟩

/-! ## CONNECT packets -/

variable {frame : Frame} {packet : MqttPacket}

/-- The payload is decoded up to the end of the frame. -/
theorem decodeConnectPayload_eq_ok_iff {protName : Bytes} {protLevel conFlags : UInt8}
    (hend : frame.endPos ≤ buffer.length) (hpos : pos ≤ frame.endPos) (hnamed : protName ≠ [])
    (hshort : protName.length ≤ 65535) :
    decodeConnectPayload protName protLevel conFlags buffer frame pos = .ok packet ↔
      ∃ w : ConnectFields, w.protocolName = protName ∧ w.protocolLevel = protLevel ∧
        w.connectFlags = conFlags ∧ slice buffer pos frame.endPos = w.payload ∧
          packet = .connect (w.decoded (UInt32.ofNat frame.remainingLength)) := by
  unfold decodeConnectPayload
  constructor
  · intro h
    rcases bind_eq_ok_iff.mp h with ⟨⟨pos₁, keepAliveSecs⟩, hkeepAlive, h⟩
    rcases bind_eq_ok_iff.mp h with ⟨⟨pos₂, clientId⟩, hclientId, h⟩
    rcases bind_eq_ok_iff.mp h with ⟨⟨pos₃, topic, message⟩, hwill, h⟩
    rcases bind_eq_ok_iff.mp h with ⟨⟨pos₄, username⟩, husername, h⟩
    rcases bind_eq_ok_iff.mp h with ⟨⟨pos₅, password⟩, hpassword, h⟩
    rcases bind_eq_ok_iff.mp h with ⟨_, hstop, hresult⟩
    rcases (reads_uint16 hend _ _ _ hpos).mp hkeepAlive with ⟨hle₁, hpos₁, hslice₁⟩
    rcases (reads_utf8String hend _ _ _ hpos₁).mp hclientId with
      ⟨hle₂, hpos₂, hshort₂, hslice₂⟩
    rcases (decodeLastWill_eq_ok_iff hend hpos₂).mp hwill with
      ⟨lastWill, hpresent₃, hshort₃, htexts, hle₃, hpos₃, hslice₃⟩
    rcases (decodeOptionalString_eq_ok_iff hend hpos₃).mp husername with
      ⟨user, hpresent₄, hshort₄, rfl, hle₄, hpos₄, hslice₄⟩
    rcases (decodeOptionalString_eq_ok_iff hend hpos₄).mp hpassword with
      ⟨pass, hpresent₅, hshort₅, rfl, hle₅, hpos₅, hslice₅⟩
    have hstop : pos₅ = frame.endPos := Classical.not_not.mp (throwIf_eq_ok_iff.mp hstop)
    subst hstop
    cases hresult
    refine ⟨⟨protName, protLevel, conFlags, keepAliveSecs, clientId, lastWill, user, pass,
      hnamed, hshort, hshort₂, hpresent₃, hshort₃, hpresent₄, hshort₄, hpresent₅, hshort₅⟩,
      rfl, rfl, rfl, ?_, ?_⟩
    · rw [ConnectFields.payload, ← hslice₁, ← hslice₂, ← hslice₃, ← hslice₄, ← hslice₅,
        slice_append hle₄ hle₅, slice_append hle₃ (Nat.le_trans hle₄ hle₅),
        slice_append hle₂ hpos₂, slice_append hle₁ hpos₁]
    · simp only [ConnectFields.decoded, ← htexts]
  · rintro ⟨w, rfl, rfl, rfl, hslice, rfl⟩
    obtain ⟨pos₁, hle₁, hpos₁, hslice₁, hslice⟩ := (slice_eq_append_iff hpos hend).mp hslice
    obtain ⟨pos₂, hle₂, hpos₂, hslice₂, hslice⟩ := (slice_eq_append_iff hpos₁ hend).mp hslice
    obtain ⟨pos₃, hle₃, hpos₃, hslice₃, hslice⟩ := (slice_eq_append_iff hpos₂ hend).mp hslice
    obtain ⟨pos₄, hle₄, hpos₄, hslice₄, hslice₅⟩ := (slice_eq_append_iff hpos₃ hend).mp hslice
    have hkeepAlive := (reads_uint16 hend _ _ _ hpos).mpr ⟨hle₁, hpos₁, hslice₁⟩
    have hclientId := (reads_utf8String hend _ _ _ hpos₁).mpr
      ⟨hle₂, hpos₂, w.clientId_short, hslice₂⟩
    have hwill := (decodeLastWill_eq_ok_iff hend hpos₂).mpr
      ⟨w.lastWill, w.lastWill_present, w.lastWill_short, rfl, hle₃, hpos₃, hslice₃⟩
    have husername := (decodeOptionalString_eq_ok_iff hend hpos₃).mpr
      ⟨w.username, w.username_present, w.username_short, rfl, hle₄, hpos₄, hslice₄⟩
    have hpassword := (decodeOptionalString_eq_ok_iff hend hpos₄).mpr
      ⟨w.password, w.password_present, w.password_short, rfl, hpos₄, Nat.le_refl _, hslice₅⟩
    exact bind_eq_ok_iff.mpr ⟨_, hkeepAlive, bind_eq_ok_iff.mpr ⟨_, hclientId,
      bind_eq_ok_iff.mpr ⟨_, hwill, bind_eq_ok_iff.mpr ⟨_, husername,
        bind_eq_ok_iff.mpr ⟨_, hpassword,
          bind_eq_ok_iff.mpr ⟨(), throwIf_eq_ok_iff.mpr (fun h => h rfl), rfl⟩⟩⟩⟩⟩⟩

/-- A payload starts with an integer. -/
theorem room_of_decodeConnectPayload {protName : Bytes} {protLevel conFlags : UInt8}
    (h : decodeConnectPayload protName protLevel conFlags buffer frame pos = .ok packet) :
    pos + 2 ≤ frame.endPos := by
  by_contra hroom
  unfold decodeConnectPayload at h
  rw [decodeUint16_of_lt (Nat.lt_of_not_le hroom)] at h
  cases h

/-- The two bytes between protocol name and payload. -/
theorem slice_two_iff {level flags : UInt8} (hroom : pos + 2 ≤ buffer.length) :
    slice buffer pos (pos + 2) = [level, flags] ↔
      readByte buffer pos = .ok level ∧ readByte buffer (pos + 1) = .ok flags := by
  rcases exists_drop_eq hroom with ⟨msb, lsb, rest, hdrop⟩
  rcases getElem?_of_drop_eq hdrop with ⟨hmsb, hlsb, -⟩
  rw [slice, hdrop, Nat.add_sub_cancel_left, readByte, readByte, hmsb, hlsb]
  simp

/-- Which name a CONNECT begins with. -/
theorem decodeProtocolName_eq_ok_iff {name : Bytes} :
    decodeProtocolName buffer frame = .ok (pos, name) ↔
      frame.type = .connect ∧ frame.typeAndFlags &&& 0x0F = 0x00 ∧
        decodeUtf8String buffer frame.beginPos frame.endPos = .ok (pos, name) ∧ name ≠ [] := by
  refine header_bind_eq_ok_iff.trans (and_congr_right' (and_congr_right' ?_))
  simp only [bind_eq_ok_iff, throwIf_eq_ok_iff, exists_const, Except.ok.injEq, Prod.exists]
  constructor
  · rintro ⟨pos', name', hname, hnonempty, hresult⟩
    cases hresult
    exact ⟨hname, hnonempty⟩
  · rintro ⟨hname, hnonempty⟩
    exact ⟨pos, name, hname, hnonempty, rfl⟩

/-- The bytes that the name of a CONNECT is read from. -/
theorem decodeProtocolName_eq_ok_iff_slice {name : Bytes}
    (hend : frame.endPos ≤ buffer.length) :
    decodeProtocolName buffer frame = .ok (pos, name) ↔
      frame.type = .connect ∧ frame.typeAndFlags &&& 0x0F = 0x00 ∧ name ≠ [] ∧
        name.length ≤ 65535 ∧ frame.beginPos ≤ pos ∧ pos ≤ frame.endPos ∧
          slice buffer frame.beginPos pos = stringBytes name := by
  refine decodeProtocolName_eq_ok_iff.trans (and_congr_right' (and_congr_right' ?_))
  have hreads := reads_utf8String hend frame.beginPos pos name frame.ordered
  constructor
  · rintro ⟨hname, hnonempty⟩
    obtain ⟨hle, hle', hshort, hslice⟩ := hreads.mp hname
    exact ⟨hnonempty, hshort, hle, hle', hslice⟩
  · rintro ⟨hnonempty, hshort, hle, hle', hslice⟩
    exact ⟨hreads.mpr ⟨hle, hle', hshort, hslice⟩, hnonempty⟩

/-- The packet that is decoded from a frame comes from the fields of its body. -/
theorem decodeConnect_eq_ok_iff (hend : frame.endPos ≤ buffer.length) :
    decodeConnect buffer frame = .ok packet ↔
      frame.type = .connect ∧ frame.typeAndFlags &&& 0x0F = 0x00 ∧
        ∃ w : ConnectFields, frame.body buffer = w.bytes ∧
          packet = .connect (w.decoded (UInt32.ofNat frame.remainingLength)) := by
  have hbody : frame.body buffer = slice buffer frame.beginPos frame.endPos := rfl
  unfold decodeConnect
  constructor
  · intro h
    rcases bind_eq_ok_iff.mp h with ⟨⟨pos, name⟩, hname, h⟩
    rcases bind_eq_ok_iff.mp h with ⟨level, hlevel, h⟩
    rcases bind_eq_ok_iff.mp h with ⟨flags, hflags, hpayload⟩
    rcases (decodeProtocolName_eq_ok_iff_slice hend).mp hname with
      ⟨htype, hheader, hnonempty, hshort, hle, hle', hslice⟩
    have hroom : pos + 2 ≤ frame.endPos := by
      have := room_of_decodeConnectPayload hpayload
      omega
    rcases (decodeConnectPayload_eq_ok_iff hend hroom hnonempty hshort).mp hpayload with
      ⟨w, rfl, rfl, rfl, hrest, rfl⟩
    have htwo := (slice_two_iff (Nat.le_trans hroom hend)).mpr ⟨hlevel, hflags⟩
    refine ⟨htype, hheader, w, ?_, rfl⟩
    rw [hbody, ConnectFields.bytes, ← hslice, ← htwo, ← hrest,
      slice_append (Nat.le_add_right pos 2) hroom, slice_append hle hle']
  · rintro ⟨htype, hheader, w, hbytes, rfl⟩
    rw [hbody, ConnectFields.bytes] at hbytes
    obtain ⟨pos, hle, hle', hname, hrest⟩ :=
      (slice_eq_append_iff frame.ordered hend).mp hbytes
    obtain ⟨pos₂, htwo, hroom, hlevel, hpayload⟩ := (slice_eq_append_iff hle' hend).mp hrest
    obtain rfl : pos₂ = pos + 2 := by
      have hlength : (slice buffer pos pos₂).length = pos₂ - pos :=
        length_slice (Nat.le_trans hroom hend)
      rw [hlevel] at hlength
      simp only [List.length_cons, List.length_nil] at hlength
      omega
    have hbytes := (slice_two_iff (Nat.le_trans hroom hend)).mp hlevel
    have hname := (decodeProtocolName_eq_ok_iff_slice hend).mpr
      ⟨htype, hheader, w.named, w.protocolName_short, hle, hle', hname⟩
    have hpayload := (decodeConnectPayload_eq_ok_iff hend hroom w.named
      w.protocolName_short).mpr ⟨w, rfl, rfl, rfl, hpayload, rfl⟩
    exact bind_eq_ok_iff.mpr ⟨_, hname, bind_eq_ok_iff.mpr ⟨_, hbytes.1,
      bind_eq_ok_iff.mpr ⟨_, hbytes.2, hpayload⟩⟩⟩

/-! ## A frame has one sequence of fields -/

/-- An optional string is determined if it is known whether it is there. -/
theorem optionalBytes_append_inj {s s' : Option Bytes} {rest rest' : Bytes}
    (hpresent : s.isSome = s'.isSome) (hs : ∀ x ∈ s, x.length ≤ 65535)
    (hs' : ∀ x ∈ s', x.length ≤ 65535)
    (h : optionalBytes s ++ rest = optionalBytes s' ++ rest') : s = s' ∧ rest = rest' := by
  cases s with
  | none =>
      cases s' with
      | none => exact ⟨rfl, h⟩
      | some s' => cases hpresent
  | some s =>
      cases s' with
      | none => cases hpresent
      | some s' =>
          obtain ⟨rfl, hrest⟩ := stringBytes_append_inj (hs s rfl) (hs' s' rfl) h
          exact ⟨rfl, hrest⟩

/-- A last will is determined if it is known whether it is there. -/
theorem lastWillBytes_append_inj {w w' : Option (Bytes × Bytes)} {rest rest' : Bytes}
    (hpresent : w.isSome = w'.isSome)
    (hw : ∀ x ∈ w, x.1.length ≤ 65535 ∧ x.2.length ≤ 65535)
    (hw' : ∀ x ∈ w', x.1.length ≤ 65535 ∧ x.2.length ≤ 65535)
    (h : lastWillBytes w ++ rest = lastWillBytes w' ++ rest') : w = w' ∧ rest = rest' := by
  cases w with
  | none =>
      cases w' with
      | none => exact ⟨rfl, h⟩
      | some w' => cases hpresent
  | some w =>
      cases w' with
      | none => cases hpresent
      | some w' =>
          obtain ⟨htopic, hmessage⟩ := hw w rfl
          obtain ⟨htopic', hmessage'⟩ := hw' w' rfl
          simp only [lastWillBytes, Option.elim_some, List.append_assoc] at h
          obtain ⟨heq, h⟩ := stringBytes_append_inj htopic htopic' h
          obtain ⟨heq', h⟩ := stringBytes_append_inj hmessage hmessage' h
          exact ⟨by rw [Prod.ext heq heq'], h⟩

/-- A frame has one sequence of fields. -/
theorem ConnectFields.bytes_injective : Function.Injective ConnectFields.bytes := by
  intro w w' h
  obtain ⟨hname, h⟩ := stringBytes_append_inj w.protocolName_short w'.protocolName_short h
  obtain ⟨htwo, h⟩ := List.append_inj h rfl
  obtain ⟨hlevel, hflags, -⟩ : w.protocolLevel = w'.protocolLevel ∧
      w.connectFlags = w'.connectFlags ∧ True := by simpa using htwo
  obtain ⟨hkeepAlive, h⟩ := List.append_inj h rfl
  obtain ⟨hclientId, h⟩ := stringBytes_append_inj w.clientId_short w'.clientId_short h
  have hwillPresent : w.lastWill.isSome = w'.lastWill.isSome := by
    rw [w.lastWill_present, w'.lastWill_present, hflags]
  obtain ⟨hwill, h⟩ :=
    lastWillBytes_append_inj hwillPresent w.lastWill_short w'.lastWill_short h
  have hnamePresent : w.username.isSome = w'.username.isSome := by
    rw [w.username_present, w'.username_present, hflags]
  obtain ⟨husername, h⟩ :=
    optionalBytes_append_inj hnamePresent w.username_short w'.username_short h
  have hpassPresent : w.password.isSome = w'.password.isSome := by
    rw [w.password_present, w'.password_present, hflags]
  have hlast : optionalBytes w.password ++ [] = optionalBytes w'.password ++ [] := by rw [h]
  obtain ⟨hpassword, -⟩ :=
    optionalBytes_append_inj hpassPresent w.password_short w'.password_short hlast
  exact ConnectFields.ext hname hlevel hflags (uint16Bytes_injective hkeepAlive) hclientId
    hwill husername hpassword

/-! ## What a decoded packet carries -/

/-- The packet carries the fields. -/
structure Carries (c : Connect) (w : ConnectFields) : Prop where
  protocolName : c.protName = w.protocolName
  protocolLevel : c.protLevel = w.protocolLevel
  connectFlags : c.conFlags = w.connectFlags
  keepAliveSecs : c.keepAliveSecs = w.keepAliveSecs
  clientId : c.clientId = w.clientId
  willTopic : c.willTopic = w.lastWill.map Prod.fst
  willMessage : c.willMessage = w.lastWill.map Prod.snd
  username : c.username = w.username
  password : c.password = w.password

/-- What is carried is there if its flag is set. -/
theorem Carries.present {c : Connect} {w : ConnectFields} (h : Carries c w) :
    c.willTopic.isSome = c.containsLastWill ∧ c.willMessage.isSome = c.containsLastWill ∧
      c.username.isSome = c.hasUsername ∧ c.password.isSome = c.hasPassword := by
  have hwill : w.lastWill.isSome = c.containsLastWill := by
    rw [w.lastWill_present, ← h.connectFlags]
    rfl
  refine ⟨?_, ?_, ?_, ?_⟩
  · rw [h.willTopic, Option.isSome_map, hwill]
  · rw [h.willMessage, Option.isSome_map, hwill]
  · rw [h.username, w.username_present, ← h.connectFlags]
    rfl
  · rw [h.password, w.password_present, ← h.connectFlags]
    rfl

/-- All optional fields are there, and no string contains a NUL. -/
structure ConnectFields.Unharmed (w : ConnectFields) : Prop where
  protocolName : 0x00 ∉ w.protocolName
  clientId : 0x00 ∉ w.clientId
  lastWill : ∃ will ∈ w.lastWill, 0x00 ∉ will.1
  username : ∃ s ∈ w.username, 0x00 ∉ s
  password : ∃ s ∈ w.password, 0x00 ∉ s

/-- A C string is the whole string unless there is a NUL in it. -/
theorem cString_eq_self_iff {s : Bytes} : cString s = s ↔ 0x00 ∉ s := by
  rw [cString, List.takeWhile_eq_self_iff]
  simp only [ne_eq, decide_not, Bool.not_eq_eq_eq_not, Bool.not_true, decide_eq_false_iff_not]
  constructor
  · intro h hmem
    exact h 0 hmem rfl
  · rintro h x hx rfl
    exact h hx

/-- An optional string that is handed over as a C string. -/
theorem some_cString_eq_iff {s : Option Bytes} :
    some (cString (s.getD [])) = s ↔ ∃ x ∈ s, 0x00 ∉ x := by
  cases s with
  | none => simp
  | some x => simp [cString_eq_self_iff]

/-- When the decoded packet carries the fields. -/
theorem carries_decoded_iff {w : ConnectFields} {remainingLength : UInt32} :
    Carries (w.decoded remainingLength) w ↔ w.Unharmed := by
  constructor
  · intro h
    refine ⟨cString_eq_self_iff.mp h.protocolName, cString_eq_self_iff.mp h.clientId, ?_,
      some_cString_eq_iff.mp h.username, some_cString_eq_iff.mp h.password⟩
    have htopic := h.willTopic
    cases hwill : w.lastWill with
    | none => simp [ConnectFields.decoded, Connect.create, hwill] at htopic
    | some will =>
        simp [ConnectFields.decoded, Connect.create, hwill, cString_eq_self_iff] at htopic
        exact ⟨will, rfl, htopic⟩
  · intro h
    obtain ⟨will, hwill, htopic⟩ := h.lastWill
    have hwill : w.lastWill = some will := hwill
    refine ⟨cString_eq_self_iff.mpr h.protocolName, rfl, rfl, rfl,
      cString_eq_self_iff.mpr h.clientId, ?_, ?_, some_cString_eq_iff.mpr h.username,
      some_cString_eq_iff.mpr h.password⟩
    · simp [ConnectFields.decoded, Connect.create, hwill, cString_eq_self_iff, htopic]
    · simp [ConnectFields.decoded, Connect.create, hwill]

/-- When the packets that are decoded from two frames carry their fields and are of
different clients if the frames are. -/
theorem connect_faithful_iff {buffer₁ buffer₂ : Bytes} {frame₁ frame₂ : Frame}
    {c₁ c₂ : Connect} (hend₁ : frame₁.endPos ≤ buffer₁.length)
    (hend₂ : frame₂.endPos ≤ buffer₂.length)
    (h₁ : decodeConnect buffer₁ frame₁ = .ok (.connect c₁))
    (h₂ : decodeConnect buffer₂ frame₂ = .ok (.connect c₂)) :
    ∃ w₁ w₂ : ConnectFields, frame₁.body buffer₁ = w₁.bytes ∧ frame₂.body buffer₂ = w₂.bytes ∧
      (Carries c₁ w₁ ∧ Carries c₂ w₂ ∧
        (w₁.clientId ≠ w₂.clientId → c₁.clientId ≠ c₂.clientId) ↔
      w₁.Unharmed ∧ w₂.Unharmed) := by
  rcases (decodeConnect_eq_ok_iff hend₁).mp h₁ with ⟨-, -, w₁, hbytes₁, hc₁⟩
  rcases (decodeConnect_eq_ok_iff hend₂).mp h₂ with ⟨-, -, w₂, hbytes₂, hc₂⟩
  cases hc₁
  cases hc₂
  refine ⟨w₁, w₂, hbytes₁, hbytes₂, ?_⟩
  rw [carries_decoded_iff, carries_decoded_iff]
  constructor
  · rintro ⟨hw₁, hw₂, -⟩
    exact ⟨hw₁, hw₂⟩
  · rintro ⟨hw₁, hw₂⟩
    refine ⟨hw₁, hw₂, ?_⟩
    intro hne heq
    apply hne
    calc w₁.clientId = cString w₁.clientId := (cString_eq_self_iff.mpr hw₁.clientId).symm
      _ = cString w₂.clientId := heq
      _ = w₂.clientId := cString_eq_self_iff.mpr hw₂.clientId

/-- A CONNECT with all optional fields: protocol name M, a client identifier of one character, last
will t with message m, user u, password p. -/
def fullConnectOf (c : UInt8) : Bytes :=
  [0x00, 0x01, 0x4D, 0x04, 0xC6, 0x00, 0x3C, 0x00, 0x01, c, 0x00, 0x01, 0x74, 0x00, 0x01,
    0x6D, 0x00, 0x01, 0x75, 0x00, 0x01, 0x70]

/-- The full CONNECT of the client a. -/
def fullConnect : Bytes := fullConnectOf 0x61

/-- The frame of a CONNECT at the beginning of a buffer. -/
def connectFrame (length : Nat) : Frame := ⟨0x10, 0, length, Nat.zero_le length⟩

/-- The protocol name of a full CONNECT is not empty. -/
theorem fullConnect_named : ([0x4D] : Bytes) ≠ [] := List.cons_ne_nil _ _

/-- The protocol name of a full CONNECT is short. -/
theorem fullConnect_short : ([0x4D] : Bytes).length ≤ 65535 := by decide

/-- The fields of a full CONNECT. -/
def fullFields (c : UInt8) : ConnectFields where
  protocolName := [0x4D]
  protocolLevel := 0x04
  connectFlags := 0xC6
  keepAliveSecs := 60
  clientId := [c]
  lastWill := some ([0x74], [0x6D])
  username := some [0x75]
  password := some [0x70]
  named := fullConnect_named
  protocolName_short := fullConnect_short
  clientId_short := Nat.le_of_ble_eq_true rfl
  lastWill_present := rfl
  lastWill_short := by decide
  username_present := rfl
  username_short := by decide
  password_present := rfl
  password_short := by decide

theorem unharmed_fullFields {c : UInt8} (hc : 0x00 ≠ c) : (fullFields c).Unharmed where
  protocolName := (by decide : (0x00 : UInt8) ∉ [0x4D])
  clientId := by simpa [fullFields] using hc
  lastWill := ⟨_, rfl, by decide⟩
  username := ⟨_, rfl, by decide⟩
  password := ⟨_, rfl, by decide⟩

/-- Two clients are told apart, and their packets carry all fields. -/
theorem connect_faithful_full :
    ∃ c₁ c₂ : Connect,
      decodeConnect (fullConnectOf 0x61) (connectFrame 22) = .ok (.connect c₁) ∧
        decodeConnect (fullConnectOf 0x62) (connectFrame 22) = .ok (.connect c₂) ∧
        Carries c₁ (fullFields 0x61) ∧ Carries c₂ (fullFields 0x62) ∧
          c₁.clientId ≠ c₂.clientId := by
  obtain ⟨c₁, h₁⟩ : ∃ c, decodeConnect (fullConnectOf 0x61) (connectFrame 22) =
    .ok (.connect c) := ⟨_, rfl⟩
  obtain ⟨c₂, h₂⟩ : ∃ c, decodeConnect (fullConnectOf 0x62) (connectFrame 22) =
    .ok (.connect c) := ⟨_, rfl⟩
  obtain ⟨w₁, w₂, hbytes₁, hbytes₂, hfaithful⟩ :=
    connect_faithful_iff (Nat.le_refl 22) (Nat.le_refl 22) h₁ h₂
  have hbody₁ : (connectFrame 22).body (fullConnectOf 0x61) = (fullFields 0x61).bytes := rfl
  have hbody₂ : (connectFrame 22).body (fullConnectOf 0x62) = (fullFields 0x62).bytes := rfl
  obtain rfl := ConnectFields.bytes_injective (hbody₁.symm.trans hbytes₁)
  obtain rfl := ConnectFields.bytes_injective (hbody₂.symm.trans hbytes₂)
  obtain ⟨hcarries₁, hcarries₂, hclients⟩ :=
    hfaithful.mpr ⟨unharmed_fullFields (by decide), unharmed_fullFields (by decide)⟩
  exact ⟨c₁, c₂, h₁, h₂, hcarries₁, hcarries₂, hclients (by decide)⟩

/-- A CONNECT without optional fields; the client identifier consists of the character a, a
NUL and another character. -/
def connectOf (c : UInt8) : Bytes :=
  [0x00, 0x01, 0x4D, 0x04, 0x02, 0x00, 0x3C, 0x00, 0x03, 0x61, 0x00, c]

/-- The fields of a CONNECT without optional fields. -/
theorem exists_fields_connectOf (c : UInt8) : ∃ w : ConnectFields,
    (connectFrame 12).body (connectOf c) = w.bytes ∧ w.clientId = [0x61, 0x00, c] := by
  have hnone (P : Bytes → Prop) : ∀ s ∈ (none : Option Bytes), P s := by simp
  have hwill (P : Bytes × Bytes → Prop) : ∀ w ∈ (none : Option (Bytes × Bytes)), P w := by simp
  have hname : [0x4D].length ≤ 65535 := by decide
  have hid : [0x61, 0x00, c].length ≤ 65535 := Nat.le_of_ble_eq_true rfl
  refine ⟨⟨[0x4D], 0x04, 0x02, 60, [0x61, 0x00, c], none, none, none, List.cons_ne_nil _ _,
    hname, hid, rfl, hwill _, rfl, hnone _, rfl, hnone _⟩, ?_, rfl⟩
  have hlength : uint16Bytes (UInt16.ofNat 3) = [0x00, 0x03] := rfl
  have hstring : stringBytes [0x61, 0x00, c] = [0x00, 0x03, 0x61, 0x00, c] :=
    congrArg (· ++ [0x61, 0x00, c]) hlength
  have hprotocol : stringBytes [0x4D] = [0x00, 0x01, 0x4D] := rfl
  have hkeepAlive : uint16Bytes 60 = [0x00, 0x3C] := rfl
  change _ = stringBytes [0x4D] ++ ([0x04, 0x02] ++ (uint16Bytes 60 ++
    (stringBytes [0x61, 0x00, c] ++ ([] ++ ([] ++ [])))))
  rw [hprotocol, hkeepAlive, hstring]
  rfl

/-- Two clients are taken for one, and a user name is carried that is not there. -/
theorem connect_unfaithful :
    ∃ c₁ c₂ : Connect, ∃ w₁ w₂ : ConnectFields,
      decodeConnect (connectOf 0x62) (connectFrame 12) = .ok (.connect c₁) ∧
        decodeConnect (connectOf 0x63) (connectFrame 12) = .ok (.connect c₂) ∧
        (connectFrame 12).body (connectOf 0x62) = w₁.bytes ∧
        (connectFrame 12).body (connectOf 0x63) = w₂.bytes ∧
        w₁.clientId ≠ w₂.clientId ∧ c₁.clientId = c₂.clientId ∧ c₁.clientId ≠ w₁.clientId ∧
        c₁.hasUsername = false ∧ c₁.username.isSome = true := by
  obtain ⟨w₁, hbytes₁, hid₁⟩ := exists_fields_connectOf 0x62
  obtain ⟨w₂, hbytes₂, hid₂⟩ := exists_fields_connectOf 0x63
  refine ⟨_, _, w₁, w₂, rfl, rfl, hbytes₁, hbytes₂, ?_, rfl, ?_, rfl, rfl⟩
  · rw [hid₁, hid₂]
    decide
  · rw [hid₁]
    decide

end Codec
end WallyIo
