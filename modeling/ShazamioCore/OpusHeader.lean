import Mathlib
import ShazamioCore.ByteCursor
import ShazamioCore.Opus

/-!
# Which headers are readable

The checks of `parse`, split over two functions, come to one condition on the fixed part
of the header and one on the mapping table behind it. What is read lies in these two
parts, so every index is in bounds and nothing behind them has a say.
-/
namespace OpusHeader

open ByteCursor Decode Opus

section Fields

variable (data : List UInt8)

def field (index : Nat) : UInt8 := data.getD index 0

def version : Nat := (field data versionOffset).toNat
def channelCount : Nat := (field data channelCountOffset).toNat
def mappingFamily : Nat := (field data mappingFamilyOffset).toNat

/-- The families that can be read, each with as many channels as it codes. -/
def FamilyCodes (family channels : Nat) : Prop :=
  family = 0 ∧ channels ≤ 2 ∨ family = 1 ∧ channels ≤ 8 ∨ family = 255 ∧ channels ≤ 255

instance (family channels : Nat) : Decidable (FamilyCodes family channels) := by
  rw [FamilyCodes]
  infer_instance

/-- The first 19 bytes of a readable header. -/
structure FixedPart : Prop where
  length : 19 ≤ data.length
  magic : data.take 8 = opusHeadMagic
  version : version data ≤ 15
  channels : channelCount data ≠ 0
  family : FamilyCodes (mappingFamily data) (channelCount data)

/-- The mapping table, where the family has one. -/
def TableFits : Prop := mappingFamily data = 0 ∨ 21 + channelCount data ≤ data.length

instance : Decidable (TableFits data) := by
  rw [TableFits]
  infer_instance

def parsedLength : Nat := if mappingFamily data = 0 then 19 else 21 + channelCount data

def layout : StreamLayout :=
  if mappingFamily data = 0 then
    ⟨1, if channelCount data = 2 then 1 else 0, (List.range (channelCount data)).map UInt8.ofNat⟩
  else ⟨field data 19, field data 20, (data.drop 21).take (channelCount data)⟩

end Fields

section Reading

variable {data : List UInt8}

theorem byteAt_eq (index : Nat) (h : index < data.length) :
    byteAt data index = pure (field data index) := by
  rw [byteAt, field, List.getD_eq_getElem _ _ h, List.getElem?_eq_getElem h]
  rfl

theorem slice_eq (start length : Nat) (h : start + length ≤ data.length) :
    slice data start (start + length) = pure ((data.drop start).take length) := by
  have hcut : (data.take (start + length)).drop start = (data.drop start).take length := by
    rw [List.drop_take, Nat.add_sub_cancel_left]
  rw [slice, if_pos ⟨Nat.le_add_right _ _, h⟩, hcut]
  rfl

theorem family_eq_iff (family : UInt8) :
    field data mappingFamilyOffset = family ↔ mappingFamily data = family.toNat := by
  rw [mappingFamily, UInt8.toNat_inj]

theorem maxChannels_rtp : maxChannelsForFamily mappingFamilyRtp = 2 := rfl
theorem maxChannels_vorbis : maxChannelsForFamily mappingFamilyVorbis = 8 := rfl
theorem maxChannels_discrete : maxChannelsForFamily mappingFamilyDiscrete = 255 := rfl

/-- The two checks on the family are one. -/
theorem familyCodes_iff (channels : Nat) :
    FamilyCodes (mappingFamily data) channels ↔
      (field data mappingFamilyOffset = mappingFamilyRtp ∨
        field data mappingFamilyOffset = mappingFamilyVorbis ∨
        field data mappingFamilyOffset = mappingFamilyDiscrete) ∧
      ¬maxChannelsForFamily (field data mappingFamilyOffset) < channels := by
  have hzero : mappingFamilyRtp.toNat = 0 := rfl
  have hone : mappingFamilyVorbis.toNat = 1 := rfl
  have hlast : mappingFamilyDiscrete.toNat = 255 := rfl
  constructor
  · intro h
    rcases h with ⟨hfamily, hchannels⟩ | ⟨hfamily, hchannels⟩ | ⟨hfamily, hchannels⟩
    · have hbyte := (family_eq_iff mappingFamilyRtp).mpr hfamily
      exact ⟨Or.inl hbyte, by rw [hbyte, maxChannels_rtp]; omega⟩
    · have hbyte := (family_eq_iff mappingFamilyVorbis).mpr hfamily
      exact ⟨Or.inr (Or.inl hbyte), by rw [hbyte, maxChannels_vorbis]; omega⟩
    · have hbyte := (family_eq_iff mappingFamilyDiscrete).mpr hfamily
      exact ⟨Or.inr (Or.inr hbyte), by rw [hbyte, maxChannels_discrete]; omega⟩
  · intro h
    obtain ⟨hfamily, hchannels⟩ := h
    rcases hfamily with hbyte | hbyte | hbyte
    · rw [hbyte, maxChannels_rtp] at hchannels
      exact Or.inl ⟨(family_eq_iff mappingFamilyRtp).mp hbyte, by omega⟩
    · rw [hbyte, maxChannels_vorbis] at hchannels
      exact Or.inr (Or.inl ⟨(family_eq_iff mappingFamilyVorbis).mp hbyte, by omega⟩)
    · rw [hbyte, maxChannels_discrete] at hchannels
      exact Or.inr (Or.inr ⟨(family_eq_iff mappingFamilyDiscrete).mp hbyte, by omega⟩)

theorem parseStreamLayout_family (hlength : 19 ≤ data.length) (channels : Nat)
    (h : ¬FamilyCodes (mappingFamily data) channels) :
    ∃ text, parseStreamLayout data channels = throw (.unsupported text) := by
  rw [familyCodes_iff, not_and] at h
  rw [parseStreamLayout, byteAt_eq _ (Nat.lt_of_lt_of_le (by decide) hlength), pure_bind]
  split
  · exact ⟨_, rfl⟩
  · rename_i hfamily
    rw [if_pos (not_not.mp (h (not_not.mp hfamily)))]
    exact ⟨_, rfl⟩

/-- Where the family is one that can be read, only the table decides. -/
theorem parseStreamLayout_codes (hlength : 19 ≤ data.length)
    (h : FamilyCodes (mappingFamily data) (channelCount data)) :
    parseStreamLayout data (channelCount data) =
      if TableFits data then pure (layout data)
      else throw (.decodeError "opus: the `OpusHead` mapping table is cut short") := by
  obtain ⟨hfamily, hchannels⟩ := (familyCodes_iff (channelCount data)).mp h
  rw [parseStreamLayout, byteAt_eq _ (Nat.lt_of_lt_of_le (by decide) hlength), pure_bind,
    if_neg (not_not.mpr hfamily), if_neg hchannels]
  have hzero : field data mappingFamilyOffset = mappingFamilyRtp ↔ mappingFamily data = 0 :=
    family_eq_iff mappingFamilyRtp
  have hoffset : channelMappingOffset = 21 := rfl
  by_cases hrtp : mappingFamily data = 0
  · rw [if_pos (hzero.mpr hrtp), if_pos (show TableFits data from Or.inl hrtp), layout,
      if_pos hrtp]
  · rw [if_neg (mt hzero.mp hrtp), layout, if_neg hrtp, hoffset]
    by_cases htable : 21 + channelCount data ≤ data.length
    · rw [if_neg (Nat.not_lt.mpr htable), if_pos (show TableFits data from Or.inr htable),
        byteAt_eq _ (show streamCountOffset < data.length from
          Nat.lt_of_lt_of_le (by decide) (Nat.le_of_add_right_le htable)),
        byteAt_eq _ (show coupledCountOffset < data.length from
          Nat.lt_of_lt_of_le (by decide) (Nat.le_of_add_right_le htable)),
        slice_eq _ _ htable]
      rfl
    · rw [if_pos (Nat.not_le.mp htable),
        if_neg (show ¬TableFits data from not_or.mpr ⟨hrtp, htable⟩)]

theorem magic_iff : opusHeadMagic <+: data ↔ data.take 8 = opusHeadMagic := by
  rw [List.prefix_iff_eq_take]
  exact eq_comm

theorem version_lt_iff : maxHeaderVersion < field data versionOffset ↔ ¬version data ≤ 15 := by
  rw [UInt8.lt_iff_toNat_lt, version, not_le]
  rfl

end Reading

section Parsing

variable {α : Type} [LinearOrder α] [F32 α] [Powf α]

def head (data : List UInt8) (h : channelCount data ≠ 0) : OpusHead α where
  channelCount := channelCount data
  preSkip := leValue ((data.drop 10).take 2)
  outputGain := Powf.powf (F32.lit 10)
    (F32.div (F32.ofInt (Int16.ofNat (leValue ((data.drop 16).take 2))).toInt)
      (F32.mul (F32.lit 20) (F32.lit 256)))
  streamLayout := layout data
  channelCount_pos := Nat.pos_of_ne_zero h

/-- Two bytes as a little-endian field. -/
theorem leValue_two (data : List UInt8) (index : Nat) (h : index + 2 ≤ data.length) :
    leValue ((data.drop index).take 2) =
      (field data index).toNat + 2 ^ 8 * (field data (index + 1)).toNat := by
  have htake : (data.drop index).take 2 = [field data index, field data (index + 1)] := by
    rw [List.drop_eq_getElem_cons (by omega), List.drop_eq_getElem_cons (by omega), field, field,
      List.getD_eq_getElem _ _ (by omega), List.getD_eq_getElem _ _ (by omega)]
    rfl
  rw [htake]
  simp [leValue]

/-- With a readable fixed part, only the table decides. -/
theorem parse_fixedPart {data : List UInt8} (h : FixedPart data) :
    (parse data : Checked (OpusHead α)) =
      if TableFits data then pure (head data h.channels)
      else throw (.decodeError "opus: the `OpusHead` mapping table is cut short") := by
  have hbyte : ∀ index < 19, byteAt data index = pure (field data index) := fun index hlt =>
    byteAt_eq index (Nat.lt_of_lt_of_le hlt h.length)
  have hheader : ¬(data.length < opusHeadMinLength ∨ ¬opusHeadMagic <+: data) := by
    rw [magic_iff]
    exact not_or.mpr ⟨Nat.not_lt.mpr h.length, not_not.mpr h.magic⟩
  have hchannels : ¬(field data channelCountOffset).toNat = 0 := h.channels
  rw [parse, if_neg hheader, hbyte _ (by decide), pure_bind,
    if_neg (version_lt_iff.not.mpr (not_not.mpr h.version)), hbyte _ (by decide), pure_bind,
    dif_neg hchannels, hbyte _ (by decide), pure_bind, hbyte _ (by decide), pure_bind,
    hbyte _ (by decide), pure_bind, hbyte _ (by decide), pure_bind,
    show parseStreamLayout data (field data channelCountOffset).toNat = _ from
      parseStreamLayout_codes h.length h.family]
  split
  · rw [pure_bind, head, leValue_two _ _ (Nat.le_trans (by decide) h.length),
      leValue_two _ _ (Nat.le_trans (by decide) h.length)]
    rfl
  · rfl

/-- Without one the header is refused as unsupported, whatever its table. -/
theorem parse_not_fixedPart {data : List UInt8} (h : ¬FixedPart data) :
    ∃ text, (parse data : Checked (OpusHead α)) = throw (.unsupported text) := by
  rw [parse]
  split
  · exact ⟨_, rfl⟩
  rename_i hheader
  rw [magic_iff, not_or, not_lt, not_not] at hheader
  obtain ⟨hlength, hmagic⟩ := hheader
  have hbyte : ∀ index < 19, byteAt data index = pure (field data index) := fun index hlt =>
    byteAt_eq index (Nat.lt_of_lt_of_le hlt hlength)
  rw [hbyte _ (by decide), pure_bind]
  split
  · exact ⟨_, rfl⟩
  rename_i hversion
  rw [version_lt_iff, not_not] at hversion
  rw [hbyte _ (by decide), pure_bind]
  split
  · exact ⟨_, rfl⟩
  rename_i hchannels
  have hfamily : ¬FamilyCodes (mappingFamily data) (channelCount data) := fun hcodes =>
    h ⟨hlength, hmagic, hversion, hchannels, hcodes⟩
  obtain ⟨text, hlayout⟩ := parseStreamLayout_family hlength _ hfamily
  rw [hbyte _ (by decide), pure_bind, hbyte _ (by decide), pure_bind, hbyte _ (by decide),
    pure_bind, hbyte _ (by decide), pure_bind,
    show parseStreamLayout data (field data channelCountOffset).toNat = _ from hlayout]
  exact ⟨text, rfl⟩

section Agreement

variable {data other : List UInt8}

omit [LinearOrder α] [F32 α] [Powf α]

theorem take_drop_agrees {n : Nat} (h : other.take n = data.take n) (start length : Nat)
    (hle : start + length ≤ n) :
    (other.drop start).take length = (data.drop start).take length := by
  have hcut : ∀ l : List UInt8,
      (l.drop start).take length = ((l.take n).drop start).take length := by
    intro l
    rw [List.drop_take, List.take_take, Nat.min_eq_left (by omega)]
  rw [hcut other, hcut data, h]

theorem field_agrees {n : Nat} (h : other.take n = data.take n) (index : Nat) (hlt : index < n) :
    field other index = field data index := by
  have hget : ∀ l : List UInt8, field l index = ((l.take n)[index]?).getD 0 := by
    intro l
    rw [field, List.getD_eq_getElem?_getD, List.getElem?_take_of_lt hlt]
  rw [hget other, hget data, h]

theorem le_parsedLength (data : List UInt8) : 19 ≤ parsedLength data := by
  rw [parsedLength]
  split <;> omega

theorem parsedLength_le (hfixed : FixedPart data) (htable : TableFits data) :
    parsedLength data ≤ data.length := by
  have hlength := hfixed.length
  rw [parsedLength]
  split
  · exact hlength
  · rename_i hfamily
    exact htable.resolve_left hfamily

/-- The fields up to the mapping family are those of every header that agrees so far. -/
theorem fields_agree (h : other.take (parsedLength data) = data.take (parsedLength data)) :
    version other = version data ∧ channelCount other = channelCount data ∧
      mappingFamily other = mappingFamily data := by
  have hle := le_parsedLength data
  have hfield : ∀ index < 19, field other index = field data index := fun index hlt =>
    field_agrees h index (by omega)
  refine ⟨?_, ?_, ?_⟩
  · rw [version, version, hfield _ (by decide)]
  · rw [channelCount, channelCount, hfield _ (by decide)]
  · rw [mappingFamily, mappingFamily, hfield _ (by decide)]

/-- Bytes past what is read of a header decide nothing. -/
theorem fixedPart_agrees (hfixed : FixedPart data) (htable : TableFits data)
    (h : other.take (parsedLength data) = data.take (parsedLength data)) :
    FixedPart other ∧ TableFits other := by
  obtain ⟨hversion, hchannels, hfamily⟩ := fields_agree h
  have hlong : parsedLength data ≤ other.length := by
    have hlengths := congrArg List.length h
    have hle := parsedLength_le hfixed htable
    simp only [List.length_take] at hlengths
    omega
  have hle := le_parsedLength data
  constructor
  · constructor
    case length => omega
    case magic =>
      have hmagic := take_drop_agrees h 0 8 (by omega)
      simp only [List.drop_zero] at hmagic
      rw [hmagic, hfixed.magic]
    case version => exact hversion ▸ hfixed.version
    case channels => exact hchannels ▸ hfixed.channels
    case family => rw [hfamily, hchannels]; exact hfixed.family
  · rw [TableFits, hfamily, hchannels]
    by_cases hzero : mappingFamily data = 0
    · exact Or.inl hzero
    · rw [parsedLength, if_neg hzero] at hlong
      exact Or.inr hlong

theorem layout_agrees (h : other.take (parsedLength data) = data.take (parsedLength data)) :
    layout other = layout data := by
  obtain ⟨-, hchannels, hfamily⟩ := fields_agree h
  rw [layout, layout, hchannels, hfamily]
  split
  · rfl
  · rename_i hnonzero
    rw [parsedLength, if_neg hnonzero] at h
    have hpositive : 21 + channelCount data ≤ 21 + channelCount data := le_rfl
    rw [field_agrees h 19 (by omega), field_agrees h 20 (by omega),
      take_drop_agrees h 21 _ hpositive]

end Agreement

theorem length_channelMapping {data : List UInt8} (htable : TableFits data) :
    (layout data).channelMapping.length = channelCount data := by
  rw [layout]
  split
  · simp
  · rename_i hfamily
    have hlong := htable.resolve_left hfamily
    simp only [List.length_take, List.length_drop]
    omega

/-- Bytes behind what is read do not matter. -/
theorem parse_agrees {data other : List UInt8} (hfixed : FixedPart data) (htable : TableFits data)
    (h : other.take (parsedLength data) = data.take (parsedLength data)) :
    (parse other : Checked (OpusHead α)) = parse data := by
  obtain ⟨hfixed', htable'⟩ := fixedPart_agrees hfixed htable h
  obtain ⟨-, hchannels, -⟩ := fields_agree h
  have hle := le_parsedLength data
  rw [parse_fixedPart hfixed', parse_fixedPart hfixed, if_pos htable', if_pos htable]
  congr 1
  simp only [head, hchannels, layout_agrees h, take_drop_agrees h 10 2 (by omega),
    take_drop_agrees h 16 2 (by omega)]

/-- Reading a header indexes nothing out of bounds and accepts exactly the readable ones,
telling a table cut short from everything else. -/
theorem parse_outcomes (data : List UInt8) :
    (parse data : Checked (OpusHead α)).run ≠ none ∧
      ((∃ head, (parse data : Checked (OpusHead α)).run = some (.ok head)) ↔
        FixedPart data ∧ TableFits data) ∧
      ((∃ text, (parse data : Checked (OpusHead α)).run = some (.error (.decodeError text))) ↔
        FixedPart data ∧ ¬TableFits data) ∧
      ((∃ text, (parse data : Checked (OpusHead α)).run = some (.error (.unsupported text))) ↔
        ¬FixedPart data) ∧
      ∀ head, (parse data : Checked (OpusHead α)).run = some (.ok head) →
        head.channelCount = channelCount data ∧
        head.streamLayout = layout data ∧
        head.streamLayout.channelMapping.length = channelCount data ∧
        head.preSkip = leValue ((data.drop 10).take 2) ∧
        ∀ other, other.take (parsedLength data) = data.take (parsedLength data) →
          (parse other : Checked (OpusHead α)).run = (parse data).run := by
  refine ⟨parse_safe data, ?_⟩
  by_cases hfixed : FixedPart data
  · by_cases htable : TableFits data
    · have hrun : (parse data : Checked (OpusHead α)).run =
          some (.ok (head data hfixed.channels)) := by
        rw [parse_fixedPart hfixed, if_pos htable]
        rfl
      simp only [hrun, hfixed, htable, Option.some.injEq, Except.ok.injEq, reduceCtorEq,
        exists_false, exists_eq', not_true_eq_false, and_self, and_false, true_and]
      intro head' hhead
      subst hhead
      refine ⟨rfl, rfl, length_channelMapping htable, rfl, ?_⟩
      intro other hagree
      rw [parse_agrees hfixed htable hagree, hrun]
    · have hrun : (parse data : Checked (OpusHead α)).run =
          some (.error (.decodeError "opus: the `OpusHead` mapping table is cut short")) := by
        rw [parse_fixedPart hfixed, if_neg htable]
        rfl
      simp [hrun, hfixed, htable]
  · obtain ⟨text, hthrow⟩ := parse_not_fixedPart (α := α) hfixed
    have hrun : (parse data : Checked (OpusHead α)).run = some (.error (.unsupported text)) := by
      rw [hthrow]
      rfl
    simp [hrun, hfixed]

end Parsing

end OpusHeader
