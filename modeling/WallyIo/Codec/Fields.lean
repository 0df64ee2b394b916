import WallyIo.Codec.Encoder
import WallyIo.Codec.PacketDecoder
import WallyIo.Library.FieldReader

/-!
# The fields of packet bodies

The decoders of fields accept exactly what encodes a value of the field.

Main results:

- Theorems {lit}`reads_uint16` and {lit}`reads_utf8String`: integers and strings.
- Theorem {lit}`decodeItems_eq_ok_iff`: a loop accepts the concatenation of its items.
- Theorem {lit}`identifiedItems_eq_ok_iff`: packets that are an identifier and items.
-/

namespace WallyIo
namespace Codec

open Protocol
open Library FieldReader

/-! ## Integers -/

/-- The two bytes of an integer that has been read from two bytes. -/
theorem uint16Bytes_ofNat (msb lsb : UInt8) :
    uint16Bytes (UInt16.ofNat (msb.toNat * 2 ^ 8 + lsb.toNat)) = [msb, lsb] := by
  have hmsb := msb.toNat_lt
  have hlsb := lsb.toNat_lt
  have hvalue : (UInt16.ofNat (msb.toNat * 2 ^ 8 + lsb.toNat)).toNat =
      msb.toNat * 2 ^ 8 + lsb.toNat := by
    rw [UInt16.toNat_ofNat']
    omega
  rw [uint16Bytes, List.cons.injEq, List.cons.injEq]
  refine ⟨?_, ?_, rfl⟩
  · apply UInt8.toNat_inj.mp
    rw [UInt16.toNat_toUInt8, UInt16.toNat_div, hvalue]
    simp only [UInt16.reduceToNat]
    omega
  · apply UInt8.toNat_inj.mp
    rw [UInt16.toNat_toUInt8, UInt16.toNat_mod, hvalue]
    simp only [UInt16.reduceToNat]
    omega

/-- An integer is read from its two bytes. -/
theorem exists_uint16Bytes (value : UInt16) : ∃ msb lsb : UInt8,
    uint16Bytes value = [msb, lsb] ∧ msb.toNat * 2 ^ 8 + lsb.toNat = value.toNat := by
  have hvalue := value.toNat_lt
  refine ⟨_, _, rfl, ?_⟩
  rw [UInt16.toNat_toUInt8, UInt16.toNat_toUInt8, UInt16.toNat_div, UInt16.toNat_mod]
  simp only [UInt16.reduceToNat]
  omega

@[simp]
theorem length_uint16Bytes (value : UInt16) : (uint16Bytes value).length = 2 := rfl

/-! ## Strings -/

/-- A string behind its length. -/
def stringBytes (s : Bytes) : Bytes := uint16Bytes (UInt16.ofNat s.length) ++ s

@[simp]
theorem length_stringBytes (s : Bytes) : (stringBytes s).length = 2 + s.length := by
  simp [stringBytes]

/-- Two bytes encode one integer. -/
theorem uint16Bytes_injective : Function.Injective uint16Bytes := by
  intro value value' h
  rcases exists_uint16Bytes value with ⟨msb, lsb, hbytes, hvalue⟩
  rcases exists_uint16Bytes value' with ⟨msb', lsb', hbytes', hvalue'⟩
  rw [hbytes, hbytes'] at h
  cases h
  exact UInt16.toNat_inj.mp (hvalue.symm.trans hvalue')

/-- Where a string ends is determined by its length in front. -/
theorem stringBytes_append_inj {s s' rest rest' : Bytes} (hs : s.length ≤ 65535)
    (hs' : s'.length ≤ 65535) (h : stringBytes s ++ rest = stringBytes s' ++ rest') :
    s = s' ∧ rest = rest' := by
  rw [stringBytes, stringBytes, List.append_assoc, List.append_assoc] at h
  have hparts := List.append_inj h rfl
  have hlength : s.length = s'.length := by
    have hnumbers := congrArg UInt16.toNat (uint16Bytes_injective hparts.1)
    rw [UInt16.toNat_ofNat', UInt16.toNat_ofNat'] at hnumbers
    omega
  exact List.append_inj hparts.2 hlength

/-! ## Fields between two iterators -/

/-- The bytes between two iterators. -/
def bytesBetween (buffer : Bytes) (pos endPos : Nat) : Bytes :=
  (buffer.drop pos).take (endPos - pos)

variable {buffer : Bytes} {pos endPos : Nat}

/-- The body of a frame stands between its iterators. -/
theorem Frame.body_eq (frame : Frame) (buffer : Bytes) :
    frame.body buffer = bytesBetween buffer frame.beginPos frame.endPos := rfl

theorem length_bytesBetween (hend : endPos ≤ buffer.length) :
    (bytesBetween buffer pos endPos).length = endPos - pos :=
  length_slice hend

/-- All bytes up to an iterator are read. -/
theorem readBytes_between (hpos : pos ≤ endPos) (hend : endPos ≤ buffer.length) :
    readBytes buffer pos (endPos - pos) = .ok (bytesBetween buffer pos endPos) := by
  rw [readBytes_of_le (by omega), bytesBetween]

/-- Two bytes are read as an integer. -/
theorem reads_uint16 (hend : endPos ≤ buffer.length) :
    Reads buffer endPos (fun pos => decodeUint16 buffer pos endPos)
      fun value field => field = uint16Bytes value := by
  intro pos pos' value _
  rw [decodeUint16_eq_ok_iff hend]
  constructor
  · rintro ⟨rfl, hle, msb, lsb, rest, hdrop, rfl⟩
    have hslice : slice buffer pos (pos + 2) = [msb, lsb] :=
      ((slice_eq_iff (Nat.le_trans hle hend)).mpr ⟨rfl, rest, hdrop.symm⟩).2
    exact ⟨Nat.le_add_right pos 2, hle, hslice.trans (uint16Bytes_ofNat msb lsb).symm⟩
  · rintro ⟨hle, hle', hslice⟩
    obtain ⟨rfl, rest, hdrop⟩ := (slice_eq_iff (Nat.le_trans hle' hend)).mp ⟨hle, hslice⟩
    obtain ⟨msb, lsb, hvalue, hsum⟩ := exists_uint16Bytes value
    rw [hvalue] at hdrop
    exact ⟨rfl, hle', msb, lsb, rest, hdrop.symm, by rw [hsum, UInt16.ofNat_toNat]⟩

/-- A string that has been decoded is no longer than its length can tell. -/
theorem short_of_decodeUtf8String {pos' : Nat} {s : Bytes} (hend : endPos ≤ buffer.length)
    (h : decodeUtf8String buffer pos endPos = .ok (pos', s)) : s.length ≤ 65535 := by
  obtain ⟨-, -, msb, lsb, rest, -, hlength⟩ := (decodeUtf8String_eq_ok_iff hend).mp h
  have hmsb := msb.toNat_lt
  have hlsb := lsb.toNat_lt
  omega

/-- A string is read behind its length. -/
theorem reads_utf8String (hend : endPos ≤ buffer.length) :
    Reads buffer endPos (fun pos => decodeUtf8String buffer pos endPos)
      fun s field => s.length ≤ 65535 ∧ field = stringBytes s := by
  intro pos pos' s _
  constructor
  · intro h
    have hshort := short_of_decodeUtf8String hend h
    obtain ⟨rfl, hle, msb, lsb, rest, hdrop, hlength⟩ := (decodeUtf8String_eq_ok_iff hend).mp h
    have hbytes : stringBytes s = msb :: lsb :: s := by
      rw [stringBytes, hlength, uint16Bytes_ofNat]
      rfl
    have hnext : pos + 2 + s.length = pos + (stringBytes s).length := by
      rw [length_stringBytes, Nat.add_assoc]
    rw [hnext] at hle ⊢
    obtain ⟨hpos, hslice⟩ := (slice_eq_iff (Nat.le_trans hle hend)).mpr
      ⟨rfl, rest, by rw [hbytes, hdrop]; rfl⟩
    exact ⟨hpos, hle, hshort, hslice⟩
  · rintro ⟨hle, hle', hshort, hslice⟩
    obtain ⟨rfl, rest, hdrop⟩ := (slice_eq_iff (Nat.le_trans hle' hend)).mp ⟨hle, hslice⟩
    obtain ⟨msb, lsb, hvalue, hsum⟩ := exists_uint16Bytes (UInt16.ofNat s.length)
    have hlength : s.length = msb.toNat * 2 ^ 8 + lsb.toNat := by
      rw [hsum, UInt16.toNat_ofNat']
      omega
    rw [stringBytes, hvalue] at hdrop
    exact (decodeUtf8String_eq_ok_iff hend).mpr ⟨by rw [length_stringBytes, Nat.add_assoc], hle',
      msb, lsb, rest, hdrop.symm, hlength⟩

/-- A check in front of a computation that returns. -/
theorem throwIf_bind_eq_ok_iff {β : Type} {condition : Prop} [Decidable condition] {what : String}
    {next : Unit → Except Fault β} {b : β} :
    (throwIf condition what >>= next) = .ok b ↔ ¬ condition ∧ next () = .ok b := by
  rw [bind_eq_ok_iff]
  constructor
  · rintro ⟨u, hcondition, hnext⟩
    exact ⟨throwIf_eq_ok_iff.mp hcondition, hnext⟩
  · rintro ⟨hcondition, hnext⟩
    exact ⟨(), throwIf_eq_ok_iff.mpr hcondition, hnext⟩

/-- A decoder asserts the packet type and checks the flags before it goes on. -/
theorem header_bind_eq_ok_iff {β : Type} {frame : Frame} {type : PacketType} {flags : UInt8}
    {what : String} {rest : Except Fault β} {b : β} :
    (do
      assert (frame.type == type)
      throwIf (frame.typeAndFlags &&& 0x0F ≠ flags) what
      rest) = .ok b ↔
      frame.type = type ∧ frame.typeAndFlags &&& 0x0F = flags ∧ rest = .ok b := by
  have hassert : (∃ u, assert (frame.type == type) = .ok u) ↔ frame.type = type := by
    constructor
    · rintro ⟨u, hu⟩
      by_contra hother
      rw [assert, if_neg (by simpa using hother)] at hu
      cases hu
    · rintro rfl
      exact ⟨(), by rw [beq_self_eq_true]; rfl⟩
  rw [bind_eq_ok_iff, exists_and_right, hassert, throwIf_bind_eq_ok_iff, ne_eq, not_not]

/-! ## Lists of items -/

variable {α : Type} {item : Nat → Except Fault (Nat × α)} {field : α → Bytes → Prop}

/-- Only no items are encoded as nothing. -/
theorem exists_fields_nil_iff (hnonempty : ∀ x front, field x front → front ≠ [])
    {xs : List α} :
    (∃ fields, List.Forall₂ field xs fields ∧ [] = fields.flatten) ↔ xs = [] := by
  constructor
  · rintro ⟨fields, hfields, hflatten⟩
    cases hfields with
    | nil => rfl
    | cons hx _ =>
        rw [List.flatten_cons] at hflatten
        exact absurd (List.append_eq_nil_iff.mp hflatten.symm).1 (hnonempty _ _ hx)
  · rintro rfl
    exact ⟨[], .nil, rfl⟩

/-- At the end there are no more items. -/
theorem decodeItems_end_iff (hnonempty : ∀ x front, field x front → front ≠ []) {fuel : Nat}
    {xs : List α} :
    decodeItems item endPos fuel endPos = .ok xs ↔
      ∃ fields, List.Forall₂ field xs fields ∧
        slice buffer endPos endPos = fields.flatten := by
  have hend : decodeItems item endPos fuel endPos = .ok [] := by
    cases fuel <;> simp [decodeItems]
  rw [hend, slice_self, exists_fields_nil_iff hnonempty, Except.ok.injEq, eq_comm]

/-- A loop accepts the concatenation of its items. -/
theorem decodeItems_eq_ok_iff (h : Reads buffer endPos item field)
    (hnonempty : ∀ x front, field x front → front ≠ []) (hend : endPos ≤ buffer.length)
    {fuel pos : Nat} (hpos : pos ≤ endPos) (hfuel : endPos ≤ pos + fuel) {xs : List α} :
    decodeItems item endPos fuel pos = .ok xs ↔
      ∃ fields, List.Forall₂ field xs fields ∧ slice buffer pos endPos = fields.flatten := by
  induction fuel generalizing pos xs with
  | zero =>
      obtain rfl : pos = endPos := by omega
      exact decodeItems_end_iff hnonempty
  | succ fuel ih =>
      by_cases hstop : pos = endPos
      · subst hstop
        exact decodeItems_end_iff hnonempty
      · rw [decodeItems, if_neg hstop]
        refine (h.bind_eq_ok_iff hpos hend (fun x rest => ∃ ys, xs = x :: ys ∧
          ∃ fields, List.Forall₂ field ys fields ∧ rest = fields.flatten) ?_).trans ?_
        · intro pos' x hle hle' hfield
          -- an item occupies at least one byte
          have hlt : pos ≠ pos' := by
            rintro rfl
            exact hnonempty x _ hfield slice_self
          rw [bind_eq_ok_iff]
          constructor
          · rintro ⟨ys, hys, hxs⟩
            cases hxs
            exact ⟨ys, rfl, (ih hle' (by omega)).mp hys⟩
          · rintro ⟨ys, rfl, hys⟩
            exact ⟨ys, (ih hle' (by omega)).mpr hys, rfl⟩
        · constructor
          · rintro ⟨x, front, rest, hx, hslice, ys, rfl, fields, hys, rfl⟩
            exact ⟨front :: fields, .cons hx hys, hslice⟩
          · rintro ⟨fields, hfields, hslice⟩
            cases hfields with
            | nil => exact absurd ((slice_eq_nil_iff hpos hend).mp hslice) hstop
            | cons hx hys => exact ⟨_, _, _, hx, hslice, _, rfl, _, hys, rfl⟩

/-- A packet that consists of an identifier and of items, of which there must be one at
least. -/
theorem identifiedItems_eq_ok_iff {frame : Frame} {type : PacketType} {flags : UInt8}
    {what whatEmpty : String} {packet : MqttPacket} (make : UInt16 → List α → MqttPacket)
    {decodeItem : Nat → Except Fault (Nat × α)} [∀ xs : List α, Decidable (xs = [])]
    (hitem : Reads buffer frame.endPos decodeItem field)
    (hnonempty : ∀ x front, field x front → front ≠ []) (hend : frame.endPos ≤ buffer.length) :
    (do
      assert (frame.type == type)
      throwIf (frame.typeAndFlags &&& 0x0F ≠ flags) what
      let (pos, packetId) ← decodeUint16 buffer frame.beginPos frame.endPos
      let xs ← decodeItems decodeItem frame.endPos (frame.endPos - pos) pos
      throwIf (xs = []) whatEmpty
      .ok (make packetId xs)) = .ok packet ↔
      frame.type = type ∧ frame.typeAndFlags &&& 0x0F = flags ∧
        ∃ packetId xs elements, xs ≠ [] ∧
          (∃ fields, List.Forall₂ field xs fields ∧ elements = fields.flatten) ∧
          frame.body buffer = uint16Bytes packetId ++ elements ∧ packet = make packetId xs := by
  refine header_bind_eq_ok_iff.trans (and_congr_right' (and_congr_right' ?_))
  refine ((reads_uint16 hend).bind_eq_ok_iff frame.ordered hend (fun packetId rest =>
    ∃ xs, xs ≠ [] ∧ (∃ fields, List.Forall₂ field xs fields ∧ rest = fields.flatten) ∧
      packet = make packetId xs) ?_).trans ?_
  · intro pos packetId _ hle _
    have hitems {xs : List α} :
        decodeItems decodeItem frame.endPos (frame.endPos - pos) pos = .ok xs ↔ _ :=
      decodeItems_eq_ok_iff hitem hnonempty hend hle (by omega)
    simp only [bind_eq_ok_iff, throwIf_eq_ok_iff, exists_const, hitems, Except.ok.injEq]
    constructor
    · rintro ⟨xs, hfields, hxs, rfl⟩
      exact ⟨xs, hxs, hfields, rfl⟩
    · rintro ⟨xs, hxs, hfields, rfl⟩
      exact ⟨xs, hfields, hxs, rfl⟩
  · constructor
    · rintro ⟨packetId, _, rest, rfl, hslice, xs, hxs, hfields, hpacket⟩
      exact ⟨packetId, xs, rest, hxs, hfields, hslice, hpacket⟩
    · rintro ⟨packetId, xs, rest, hxs, hfields, hbody, hpacket⟩
      exact ⟨packetId, _, rest, rfl, hbody, xs, hxs, hfields, hpacket⟩

end Codec
end WallyIo
