import KeyroCore.Ipc.Convert
import KeyroCore.Storage.Encoding

/-!
# The control codecs are exact

A decoder accepts exactly what its encoder writes: the four columns of a row, and the DTO of a
client.  The DTOs that are accepted are those within the layout that snapshots report.
-/

open Results

namespace KeyroCore

/-! ## Indices -/

theorem PageIndex.new_ok_iff {value : UInt8} {page : PageIndex} :
    PageIndex.new value = .ok page ↔ page.get = value := by
  unfold PageIndex.new
  constructor
  · intro h
    split at h
    · rw [← Except.ok.inj h]
    · cases h
  · rintro rfl
    rw [dif_pos page.lt]

theorem KeyIndex.new_ok_iff {value : UInt8} {key : KeyIndex} :
    KeyIndex.new value = .ok key ↔ key.get = value := by
  unfold KeyIndex.new
  constructor
  · intro h
    split at h
    · rw [← Except.ok.inj h]
    · cases h
  · rintro rfl
    rw [dif_pos key.lt]

theorem EncoderIndex.new_ok_iff {value : UInt8} {encoder : EncoderIndex} :
    EncoderIndex.new value = .ok encoder ↔ encoder.get = value := by
  unfold EncoderIndex.new
  constructor
  · intro h
    split at h
    · rw [← Except.ok.inj h]
    · cases h
  · rintro rfl
    rw [dif_pos encoder.lt]

theorem ControlId.newKey_ok_iff {page key : UInt8} {control : ControlId} :
    ControlId.newKey page key = .ok control ↔
      ∃ pageIndex keyIndex, pageIndex.get = page ∧ keyIndex.get = key ∧
        .key pageIndex keyIndex = control := by
  unfold ControlId.newKey
  simp only [bind_ok_iff, PageIndex.new_ok_iff, KeyIndex.new_ok_iff, pure_ok_iff]
  constructor
  · rintro ⟨pageIndex, samePage, keyIndex, sameKey, same⟩
    exact ⟨pageIndex, keyIndex, samePage, sameKey, same⟩
  · rintro ⟨pageIndex, keyIndex, samePage, sameKey, same⟩
    exact ⟨pageIndex, samePage, keyIndex, sameKey, same⟩

theorem ControlId.newEncoder_ok_iff {page encoder : UInt8} {operation : EncoderOperation}
    {control : ControlId} : ControlId.newEncoder page encoder operation = .ok control ↔
      ∃ pageIndex encoderIndex, pageIndex.get = page ∧ encoderIndex.get = encoder ∧
        .encoder pageIndex encoderIndex operation = control := by
  unfold ControlId.newEncoder
  simp only [bind_ok_iff, PageIndex.new_ok_iff, EncoderIndex.new_ok_iff, pure_ok_iff]
  constructor
  · rintro ⟨pageIndex, samePage, encoderIndex, sameEncoder, same⟩
    exact ⟨pageIndex, encoderIndex, samePage, sameEncoder, same⟩
  · rintro ⟨pageIndex, encoderIndex, samePage, sameEncoder, same⟩
    exact ⟨pageIndex, samePage, encoderIndex, sameEncoder, same⟩

/-! ## Rows -/

theorem u8TryFrom_ok_iff {n : ℤ} {value : UInt8} : u8TryFrom n = .ok value ↔ value.toNat = n := by
  constructor
  · intro h
    unfold u8TryFrom at h
    split at h
    · next bounds =>
      have small : n.toNat < UInt8.size := by
        rw [UInt8.size]
        omega
      rw [← Except.ok.inj h, UInt8.toNat_ofNat_of_lt' small]
      omega
    · cases h
  · rintro rfl
    exact u8TryFrom_toNat value

theorem decodeEncoderOperation_ok_iff {value : String} {operation : EncoderOperation} :
    decodeEncoderOperation value = .ok operation ↔ encodeEncoderOperation operation = value := by
  constructor
  · intro h
    unfold decodeEncoderOperation at h
    split_ifs at h with left right press
    · rw [← Except.ok.inj h, left, encodeEncoderOperation]
    · rw [← Except.ok.inj h, right, encodeEncoderOperation]
    · rw [← Except.ok.inj h, press, encodeEncoderOperation]
  · rintro rfl
    exact decodeEncoderOperation_encode operation

/-- Columns are read as a control only when they are the columns of this control. -/
theorem encodeControl_of_decodeControl {page controlIndex : ℤ}
    {controlKind controlOperation : String} {control : ControlId}
    (h : decodeControl page controlKind controlIndex controlOperation = .ok control) :
    encodeControl control = (page, controlKind, controlIndex, controlOperation) := by
  unfold decodeControl at h
  obtain ⟨page', pageRead, h⟩ := bind_ok_iff.1 h
  obtain ⟨index', indexRead, h⟩ := bind_ok_iff.1 h
  rw [u8TryFrom_ok_iff] at pageRead indexRead
  split_ifs at h with key press encoder
  · obtain ⟨pageIndex, keyIndex, rfl, rfl, rfl⟩ := ControlId.newKey_ok_iff.1 (mapError_ok_iff.1 h)
    rw [← pageRead, ← indexRead, key, press, encodeControl]
  · obtain ⟨operation, operationRead, h⟩ := bind_ok_iff.1 h
    obtain ⟨pageIndex, encoderIndex, rfl, rfl, rfl⟩ :=
      ControlId.newEncoder_ok_iff.1 (mapError_ok_iff.1 h)
    rw [← pageRead, ← indexRead, encoder, ← decodeEncoderOperation_ok_iff.1 operationRead,
      encodeControl]

/-! ## DTOs -/

theorem u8Index_ok_iff {field : String} {value : UInt16} {index : UInt8} :
    u8Index field value = .ok index ↔ index.toUInt16 = value := by
  constructor
  · intro h
    unfold u8Index at h
    split at h
    · next small =>
      rw [← Except.ok.inj h]
      apply UInt16.toNat_inj.1
      rw [UInt8.toNat_toUInt16, UInt16.toNat_toUInt8]
      omega
    · cases h
  · rintro rfl
    exact u8Index_toUInt16 field index

theorem encoderOperationToDto_fromDto (operation : EncoderOperationDto) :
    encoderOperationToDto (encoderOperationFromDto operation) = operation := by
  cases operation <;> rfl

/-- A DTO is accepted only when it is the DTO of the control it is read as. -/
theorem controlToDto_of_controlFromDto {dto : ControlDto} {control : ControlId}
    (h : controlFromDto dto = .ok control) : controlToDto control = dto := by
  cases dto with
  | key page key =>
    unfold controlFromDto at h
    obtain ⟨page', pageRead, h⟩ := bind_ok_iff.1 h
    obtain ⟨key', keyRead, h⟩ := bind_ok_iff.1 h
    obtain ⟨pageIndex, keyIndex, rfl, rfl, rfl⟩ := ControlId.newKey_ok_iff.1 (mapError_ok_iff.1 h)
    rw [controlToDto, u8Index_ok_iff.1 pageRead, u8Index_ok_iff.1 keyRead]
  | encoder page encoder operation =>
    unfold controlFromDto at h
    obtain ⟨page', pageRead, h⟩ := bind_ok_iff.1 h
    obtain ⟨encoder', encoderRead, h⟩ := bind_ok_iff.1 h
    obtain ⟨pageIndex, encoderIndex, rfl, rfl, rfl⟩ :=
      ControlId.newEncoder_ok_iff.1 (mapError_ok_iff.1 h)
    rw [controlToDto, u8Index_ok_iff.1 pageRead, u8Index_ok_iff.1 encoderRead,
      encoderOperationToDto_fromDto]

theorem controlFromDto_ok_iff {dto : ControlDto} {control : ControlId} :
    controlFromDto dto = .ok control ↔ controlToDto control = dto := by
  constructor
  · exact controlToDto_of_controlFromDto
  · rintro rfl
    exact controlFromDto_controlToDto control

/-- The control exists on a device with the layout. -/
def ControlDto.Within (layout : DeviceLayoutDto) : ControlDto → Prop
  | .key page index => page.toNat < layout.pageCount.toNat ∧
      index.toNat < layout.keyRows.toNat * layout.keyColumns.toNat
  | .encoder page index _ => page.toNat < layout.pageCount.toNat ∧
      index.toNat < layout.encoderCount.toNat

theorem controlToDto_within (control : ControlId) :
    (controlToDto control).Within (layoutToDto MVP_DEVICE_LAYOUT) := by
  cases control with
  | key page key =>
    have pageLt := UInt8.lt_iff_toNat_lt.1 page.lt
    have keyLt := UInt8.lt_iff_toNat_lt.1 key.lt
    exact ⟨pageLt, keyLt⟩
  | encoder page encoder operation =>
    have pageLt := UInt8.lt_iff_toNat_lt.1 page.lt
    have encoderLt := UInt8.lt_iff_toNat_lt.1 encoder.lt
    exact ⟨pageLt, encoderLt⟩

/-- A DTO within the layout is the DTO of a control. -/
theorem exists_control_of_within {dto : ControlDto}
    (within : dto.Within (layoutToDto MVP_DEVICE_LAYOUT)) :
    ∃ control, controlToDto control = dto := by
  have narrow {value : UInt16} (small : value.toNat < 256) : value.toUInt8.toUInt16 = value := by
    apply UInt16.toNat_inj.1
    rw [UInt8.toNat_toUInt16, UInt16.toNat_toUInt8]
    omega
  have bound {value : UInt16} {limit : UInt8} (below : value.toNat < limit.toNat) :
      value.toUInt8 < limit := by
    have limited := limit.toNat_lt
    rw [UInt8.lt_iff_toNat_lt, UInt16.toNat_toUInt8]
    omega
  have counts : PAGE_COUNT.toNat = 4 ∧ KEYS_PER_PAGE.toNat = 12 ∧ ENCODERS_PER_PAGE.toNat = 2 := by
    decide
  cases dto with
  | key page key =>
    obtain ⟨pageLt, keyLt⟩ := within
    have pageLt : page.toNat < PAGE_COUNT.toNat := pageLt
    have keyLt : key.toNat < KEYS_PER_PAGE.toNat := keyLt
    refine ⟨.key ⟨page.toUInt8, bound pageLt⟩ ⟨key.toUInt8, bound keyLt⟩, ?_⟩
    rw [controlToDto, narrow (by omega), narrow (by omega)]
  | encoder page encoder operation =>
    obtain ⟨pageLt, encoderLt⟩ := within
    have pageLt : page.toNat < PAGE_COUNT.toNat := pageLt
    have encoderLt : encoder.toNat < ENCODERS_PER_PAGE.toNat := encoderLt
    refine ⟨.encoder ⟨page.toUInt8, bound pageLt⟩ ⟨encoder.toUInt8, bound encoderLt⟩
      (encoderOperationFromDto operation), ?_⟩
    rw [controlToDto, narrow (by omega), narrow (by omega), encoderOperationToDto_fromDto]

/-- DTOs and rows are read exactly when they are what the encoders write. -/
theorem control_codecs_exact :
    (∀ dto, (∃ control, controlFromDto dto = .ok control) ↔
        dto.Within (layoutToDto MVP_DEVICE_LAYOUT)) ∧
      (∀ dto control, controlFromDto dto = .ok control → controlToDto control = dto ∧
        decodeControl (encodeControl control).1 (encodeControl control).2.1
          (encodeControl control).2.2.1 (encodeControl control).2.2.2 = .ok control) ∧
      (∀ page controlKind controlIndex controlOperation control,
        decodeControl page controlKind controlIndex controlOperation = .ok control →
          encodeControl control = (page, controlKind, controlIndex, controlOperation)) ∧
      ∀ control control', encodeControl control = encodeControl control' → control = control' := by
  refine ⟨fun dto => ⟨?_, fun within => ?_⟩, fun dto control read => ⟨?_, ?_⟩,
    fun _ _ _ _ _ read => encodeControl_of_decodeControl read,
    fun _ _ same => encodeControl_injective same⟩
  · rintro ⟨control, read⟩
    rw [← controlToDto_of_controlFromDto read]
    exact controlToDto_within control
  · obtain ⟨control, same⟩ := exists_control_of_within within
    exact ⟨control, controlFromDto_ok_iff.2 same⟩
  · exact controlToDto_of_controlFromDto read
  · exact decodeControl_encodeControl control

end KeyroCore
