import Powerboard.Configuration.Configuration

/-!
# What is read after a power loss

`readVariable_after_crash`: a variable whose record is complete is read from its data, of which the
half-words that are not programmed are still erased; any other variable has its default value. A
completed save is the case where all operations are done.
-/

namespace Powerboard.Configuration

open Bytes Flash

variable {t : ConfigTable} {ram : Ram} {page : Page} {d : ConfigVariableDescriptor} {i k : ℕ}

/-! ## Half-words and words -/

/-- The pointers of a record are read back from its half-words. -/
lemma descriptorPtr_of_bytes (record : ConfigRecordEntry)
    (h : record.configDescriptorPtr < 0x100000000) :
    (halfWordAt record.bytes 0).toNat + 0x10000 * (halfWordAt record.bytes 1).toNat =
      record.configDescriptorPtr := by
  simp only [halfWordAt, toNat_halfWord, ConfigRecordEntry.bytes]
  norm_num
  omega

lemma dataPtr_of_bytes (record : ConfigRecordEntry) (h : record.configDataPtr < 0x100000000) :
    (halfWordAt record.bytes 2).toNat + 0x10000 * (halfWordAt record.bytes 3).toNat =
      record.configDataPtr := by
  simp only [halfWordAt, toNat_halfWord, ConfigRecordEntry.bytes]
  norm_num
  omega

/-! ## The layout of the page -/

/-- The address of a record. -/
def recordAddress (i : ℕ) : ℕ := flashConfigROMBegin + sizeofRecord * i

/-- The address of the data of a variable. -/
def dataAddress (t : ConfigTable) (i : ℕ) : ℕ :=
  flashConfigROMBegin + sizeofRecord * (t.descriptors.length + 1) +
    ((t.descriptors.take i).map ConfigVariableDescriptor.actualLen).sum

/-- The record of a variable. -/
def recordOf (t : ConfigTable) (i : ℕ) : ConfigRecordEntry :=
  { configDescriptorPtr := t.descriptorPtr i, configDataPtr := dataAddress t i }

/-- What is written for a variable. -/
def block (t : ConfigTable) (ram : Ram) (i : ℕ) (d : ConfigVariableDescriptor) :
    List (ℕ × UInt16) :=
  writeWordsToFlash (recordAddress i) (recordOf t i).bytes sizeofRecord ++
    writeWordsToFlash (dataAddress t i) (ram i) d.actualLen

/-- The null record behind the records. -/
def nullRecord (t : ConfigTable) : List (ℕ × UInt16) :=
  writeWordsToFlash (recordAddress t.descriptors.length)
    (ConfigRecordEntry.mk 0 0).bytes sizeofRecord

/-- What is written, block by block. -/
def blocks (t : ConfigTable) (ram : Ram) : List (List (ℕ × UInt16)) :=
  t.descriptors.mapIdx (block t ram) ++ [nullRecord t]

lemma dataAddress_succ (h : t.descriptors[i]? = some d) :
    dataAddress t (i + 1) = dataAddress t i + d.actualLen := by
  unfold dataAddress
  rw [List.take_add_one, h]
  simp [Nat.add_assoc]

/-- The accumulators of the loop are the addresses of the layout. -/
lemma writeRecords_eq (rest before : List ConfigVariableDescriptor)
    (h : t.descriptors = before ++ rest) :
    writeRecords t ram before.length (recordAddress before.length) (dataAddress t before.length)
        rest =
      (rest.mapIdx fun j d => block t ram (before.length + j) d).flatten ++ nullRecord t := by
  induction rest generalizing before with
  | nil =>
    rw [List.append_nil] at h
    simp [writeRecords, nullRecord, h]
  | cons d rest ih =>
    have hget : t.descriptors[before.length]? = some d := by simp [h]
    have hrest := ih (before ++ [d]) (by simp [h])
    rw [List.length_append, List.length_singleton, dataAddress_succ hget] at hrest
    have haddress : recordAddress (before.length + 1) =
        recordAddress before.length + sizeofRecord := by
      unfold recordAddress
      ring
    rw [haddress] at hrest
    simp only [writeRecords, List.mapIdx_cons, List.flatten_cons, Nat.add_zero]
    rw [hrest, List.append_assoc, List.append_assoc]
    simp [block, recordOf, Nat.add_assoc, Nat.add_comm 1]

lemma writeRecords_eq_flatten :
    writeRecords t ram 0 flashConfigROMBegin
        (flashConfigROMBegin + sizeofRecord * (t.descriptors.length + 1)) t.descriptors =
      (blocks t ram).flatten := by
  have h : writeRecords t ram 0 (recordAddress 0) (dataAddress t 0) t.descriptors = _ :=
    writeRecords_eq t.descriptors [] rfl
  simp only [List.length_nil, Nat.zero_add] at h
  simpa [blocks, recordAddress, dataAddress] using h

lemma length_writeWordsToFlash (dst : ℕ) (data : ℕ → UInt8) (size : ℕ) :
    (writeWordsToFlash dst data size).length = size / 2 := by
  simp [writeWordsToFlash]

lemma getElem?_writeWordsToFlash (dst : ℕ) (data : ℕ → UInt8) {size j : ℕ} (hj : j < size / 2) :
    (writeWordsToFlash dst data size)[j]? = some (dst + 2 * j, halfWordAt data j) := by
  simp [writeWordsToFlash, hj]

lemma mem_writeWordsToFlash {dst a : ℕ} {data : ℕ → UInt8} {size : ℕ}
    (h : a ∈ (writeWordsToFlash dst data size).map Prod.fst) : dst ≤ a ∧ a < dst + size := by
  simp only [writeWordsToFlash, List.map_map, List.mem_map, List.mem_range, Function.comp] at h
  obtain ⟨j, hj, rfl⟩ := h
  omega

lemma nodup_writeWordsToFlash (dst : ℕ) (data : ℕ → UInt8) (size : ℕ) :
    ((writeWordsToFlash dst data size).map Prod.fst).Nodup := by
  unfold writeWordsToFlash
  rw [List.map_map]
  apply List.Nodup.map _ List.nodup_range
  intro j j' h
  simp only [Function.comp] at h
  omega

lemma blocks_of_descriptor (h : t.descriptors[i]? = some d) :
    (blocks t ram)[i]? = some (block t ram i d) := by
  have hlt : i < t.descriptors.length := (List.getElem?_eq_some_iff.mp h).1
  unfold blocks
  rw [List.getElem?_append_left (by simpa using hlt), List.getElem?_mapIdx, h]
  rfl

lemma blocks_nullRecord : (blocks t ram)[t.descriptors.length]? = some (nullRecord t) := by
  unfold blocks
  rw [List.getElem?_append_right (by simp)]
  simp

lemma length_block : (block t ram i d).length = sizeofRecord / 2 + d.actualLen / 2 := by
  rw [block, List.length_append, length_writeWordsToFlash, length_writeWordsToFlash]

lemma recordOffset_succ (h : t.descriptors[i]? = some d) :
    recordOffset t (i + 1) = recordOffset t i + sizeofRecord / 2 + d.actualLen / 2 := by
  unfold recordOffset
  rw [List.take_add_one, h]
  simp [Nat.add_assoc]

lemma offset_blocks (ram : Ram) (hi : i ≤ t.descriptors.length) :
    offset (blocks t ram) i = recordOffset t i := by
  induction i with
  | zero => rfl
  | succ i ih =>
    have hget := List.getElem?_eq_getElem (Nat.lt_of_succ_le hi)
    rw [offset_succ (blocks_of_descriptor hget), ih (Nat.le_of_succ_le hi), length_block,
      recordOffset_succ hget, Nat.add_assoc]

/-- The half-words of a record, in the order of programming. -/
lemma cell_of_record {j : ℕ} (h : t.descriptors[i]? = some d) (hj : j < sizeofRecord / 2) :
    (blocks t ram).flatten[recordOffset t i + j]? =
      some (recordAddress i + 2 * j, halfWordAt (recordOf t i).bytes j) := by
  have hi : i ≤ t.descriptors.length := (List.getElem?_eq_some_iff.mp h).1.le
  rw [← offset_blocks ram hi, getElem?_flatten (blocks_of_descriptor h)]
  · rw [block, List.getElem?_append_left (by rwa [length_writeWordsToFlash]),
      getElem?_writeWordsToFlash _ _ hj]
  · rw [length_block]
    omega

/-- The half-words of the data follow those of the record. -/
lemma cell_of_data {j : ℕ} (h : t.descriptors[i]? = some d) (hj : j < d.actualLen / 2) :
    (blocks t ram).flatten[recordOffset t i + (sizeofRecord / 2 + j)]? =
      some (dataAddress t i + 2 * j, halfWordAt (ram i) j) := by
  have hi : i ≤ t.descriptors.length := (List.getElem?_eq_some_iff.mp h).1.le
  rw [← offset_blocks ram hi, getElem?_flatten (blocks_of_descriptor h)]
  · rw [block, List.getElem?_append_right (by rw [length_writeWordsToFlash]; omega),
      length_writeWordsToFlash, Nat.add_sub_cancel_left, getElem?_writeWordsToFlash _ _ hj]
  · rw [length_block]
    omega

lemma cell_of_nullRecord (t : ConfigTable) (ram : Ram) {j : ℕ}
    (hj : j < sizeofRecord / 2) :
    (blocks t ram).flatten[recordOffset t t.descriptors.length + j]? =
      some (recordAddress t.descriptors.length + 2 * j,
        halfWordAt (ConfigRecordEntry.mk 0 0).bytes j) := by
  rw [← offset_blocks ram le_rfl, getElem?_flatten blocks_nullRecord]
  · rw [nullRecord, getElem?_writeWordsToFlash _ _ hj]
  · rw [nullRecord, length_writeWordsToFlash]
    exact hj

/-! ## No half-word is programmed twice -/

lemma dataAddress_mono {i j : ℕ} (h : i ≤ j) : dataAddress t i ≤ dataAddress t j := by
  unfold dataAddress
  apply Nat.add_le_add_left
  apply List.Sublist.sum_le_sum
  · exact (List.take_sublist_take_left h).map _
  · intro n _
    exact Nat.zero_le n

/-- The half-words of a block are in its record or in its data. -/
lemma mem_blocks {a : ℕ} {cells : List (ℕ × UInt16)} (h : (blocks t ram)[i]? = some cells)
    (ha : a ∈ cells.map Prod.fst) :
    i ≤ t.descriptors.length ∧
      ((recordAddress i ≤ a ∧ a < recordAddress (i + 1)) ∨
        (dataAddress t i ≤ a ∧ a < dataAddress t (i + 1))) := by
  have hsucc : recordAddress (i + 1) = recordAddress i + sizeofRecord := by
    unfold recordAddress
    ring
  rcases Nat.lt_trichotomy i t.descriptors.length with hlt | rfl | hgt
  · have hget := List.getElem?_eq_getElem hlt
    rw [blocks_of_descriptor hget, Option.some.injEq] at h
    subst h
    rw [block, List.map_append, List.mem_append] at ha
    refine ⟨hlt.le, ?_⟩
    rcases ha with ha | ha
    · rw [hsucc]
      exact Or.inl (mem_writeWordsToFlash ha)
    · rw [dataAddress_succ hget]
      exact Or.inr (mem_writeWordsToFlash ha)
  · rw [blocks_nullRecord, Option.some.injEq] at h
    subst h
    rw [hsucc]
    exact ⟨le_rfl, Or.inl (mem_writeWordsToFlash ha)⟩
  · have hlen : (blocks t ram).length = t.descriptors.length + 1 := by simp [blocks]
    have hlt := (List.getElem?_eq_some_iff.mp h).1
    omega

lemma nodup_blocks : ((blocks t ram).flatten.map Prod.fst).Nodup := by
  rw [List.map_flatten, List.nodup_flatten]
  constructor
  · intro addresses hmem
    obtain ⟨cells, hcells, rfl⟩ := List.mem_map.mp hmem
    unfold blocks at hcells
    rw [List.mem_append, List.mem_mapIdx, List.mem_singleton] at hcells
    rcases hcells with ⟨i, hi, rfl⟩ | rfl
    · rw [block, List.map_append, List.nodup_append]
      refine ⟨nodup_writeWordsToFlash _ _ _, nodup_writeWordsToFlash _ _ _, ?_⟩
      -- the records are in front of the data
      intro a ha b hb heq
      have hrecord := mem_writeWordsToFlash ha
      have hdata := mem_writeWordsToFlash hb
      have hfirst : dataAddress t 0 ≤ dataAddress t i := dataAddress_mono (Nat.zero_le i)
      simp only [recordAddress, dataAddress, List.take_zero, List.map_nil, List.sum_nil] at *
      simp only [sizeofRecord] at *
      omega
    · exact nodup_writeWordsToFlash _ _ _
  · rw [List.pairwise_map, List.pairwise_iff_getElem]
    intro i j hi hj hij a ha hb
    obtain ⟨hin, ha⟩ := mem_blocks (List.getElem?_eq_getElem hi) ha
    obtain ⟨hjn, hb⟩ := mem_blocks (List.getElem?_eq_getElem hj) hb
    have hdata : dataAddress t (i + 1) ≤ dataAddress t j := dataAddress_mono hij
    have hi0 : dataAddress t 0 ≤ dataAddress t i := dataAddress_mono (Nat.zero_le i)
    have hj0 : dataAddress t 0 ≤ dataAddress t j := dataAddress_mono (Nat.zero_le j)
    have h0 : dataAddress t 0 = flashConfigROMBegin + sizeofRecord * (t.descriptors.length + 1) := by
      simp [dataAddress]
    simp only [recordAddress, sizeofRecord] at *
    omega

/-! ## The page after a power loss -/

/-- The page after the erasure and `k` programmed half-words. -/
def crashedPage (t : ConfigTable) (ram : Ram) (page : Page) (k : ℕ) : Page :=
  Flash.run erased page ((.erasePage :: programs (blocks t ram).flatten).take (k + 1))

lemma crashedPage_record (ram : Ram) (page : Page) (k : ℕ) {j : ℕ} (h : t.descriptors[i]? = some d)
    (hj : j < sizeofRecord / 2) :
    crashedPage t ram page k (recordAddress i + 2 * j) =
      if recordOffset t i + j < k then halfWordAt (recordOf t i).bytes j else erased :=
  cell_after_crash nodup_blocks (cell_of_record h hj) page k

lemma crashedPage_data (ram : Ram) (page : Page) (k : ℕ) {j : ℕ}
    (h : t.descriptors[i]? = some d) (hj : j < d.actualLen / 2) :
    crashedPage t ram page k (dataAddress t i + 2 * j) =
      if recordOffset t i + (sizeofRecord / 2 + j) < k then halfWordAt (ram i) j else erased :=
  cell_after_crash nodup_blocks (cell_of_data h hj) page k

lemma crashedPage_nullRecord {j : ℕ} (hj : j < sizeofRecord / 2) :
    crashedPage t ram page k (recordAddress t.descriptors.length + 2 * j) =
      if recordOffset t t.descriptors.length + j < k then
        halfWordAt (ConfigRecordEntry.mk 0 0).bytes j
      else erased :=
  cell_after_crash nodup_blocks (cell_of_nullRecord _ _ hj) page k

/-! ## The bounds of the pointers -/

lemma length_descriptors_lt (t : ConfigTable) :
    t.descriptors.length < (flashConfigROMEnd - flashConfigROMBegin) / sizeofRecord := by
  have hfits := t.fits
  simp only [sizeofRecord, flashConfigROMEnd, flashConfigROMBegin] at *
  omega

lemma descriptorPtr_bounds (hi : i < t.descriptors.length) :
    0 < t.descriptorPtr i ∧ t.descriptorPtr i < allOnes := by
  have hbegin := t.begin_pos
  have hend := t.end_le
  simp only [ConfigTable.descriptorPtr, sizeofDescriptor, allOnes] at *
  omega

lemma descriptorPtr_injective {j : ℕ} (h : t.descriptorPtr i = t.descriptorPtr j) : i = j := by
  simp only [ConfigTable.descriptorPtr, sizeofDescriptor] at h
  omega

lemma actualLen_pos (d : ConfigVariableDescriptor) : 0 < d.actualLen := by
  have hpos := d.dataLen_pos
  unfold ConfigVariableDescriptor.actualLen
  omega

/-- The data of every variable is in the page. -/
lemma dataAddress_bounds (h : t.descriptors[i]? = some d) :
    IsPointerInConfigMemory (dataAddress t i) ∧ dataAddress t i + d.actualLen ≤ flashConfigROMEnd := by
  have hlast : dataAddress t (i + 1) ≤ dataAddress t t.descriptors.length :=
    dataAddress_mono (List.getElem?_eq_some_iff.mp h).1
  rw [dataAddress_succ h] at hlast
  have hend : dataAddress t t.descriptors.length ≤ flashConfigROMEnd := by
    have hfits := t.fits
    unfold dataAddress
    rw [List.take_length]
    simp only [flashConfigROMEnd, flashConfigROMBegin] at *
    omega
  have hbegin : flashConfigROMBegin ≤ dataAddress t i := by
    unfold dataAddress
    omega
  have hpos := actualLen_pos d
  exact ⟨⟨hbegin, by omega⟩, by omega⟩

lemma recordOffset_mono {i j : ℕ} (h : i ≤ j) : recordOffset t i ≤ recordOffset t j := by
  unfold recordOffset
  apply List.Sublist.sum_le_sum
  · exact (List.take_sublist_take_left h).map _
  · intro n _
    exact Nat.zero_le n

/-! ## The records after a power loss -/

/-- A record of which all half-words are programmed. -/
lemma recordAt_of_complete (h : t.descriptors[i]? = some d)
    (hk : recordOffset t i + sizeofRecord / 2 ≤ k) :
    recordAt (crashedPage t ram page k) (recordAddress i) = recordOf t i := by
  have hi := (List.getElem?_eq_some_iff.mp h).1
  have hdescriptor := (descriptorPtr_bounds hi).2
  have hdata := (dataAddress_bounds h).1.2
  have hcell : ∀ j < 4, crashedPage t ram page k (recordAddress i + 2 * j) =
      halfWordAt (recordOf t i).bytes j := by
    intro j hj
    rw [crashedPage_record ram page k h hj, if_pos]
    simp only [sizeofRecord] at hk
    omega
  have h0 := hcell 0 (by decide)
  have h1 := hcell 1 (by decide)
  have h2 := hcell 2 (by decide)
  have h3 := hcell 3 (by decide)
  simp only [allOnes, flashConfigROMEnd] at hdescriptor hdata
  have hfirst := descriptorPtr_of_bytes (recordOf t i) (by
    show t.descriptorPtr i < _
    omega)
  have hsecond := dataPtr_of_bytes (recordOf t i) (by
    show dataAddress t i < _
    omega)
  unfold recordAt wordAt
  rw [Nat.add_assoc (recordAddress i) 4 2]
  simp only [Nat.mul_zero, Nat.add_zero, Nat.mul_one, Nat.reduceMul] at h0 h1 h2 h3
  rw [h0, h1, h2, h3, hfirst, hsecond]

/-- The data pointer of a record that is not begun is erased. -/
lemma isEnd_of_erased {address : ℕ} (hlow : page (address + 4) = erased)
    (hhigh : page (address + 6) = erased) : (recordAt page address).IsEnd := by
  right; right; right
  show (page (address + 4)).toNat + 0x10000 * (page (address + 6)).toNat = allOnes
  rw [hlow, hhigh]
  decide

/-- While the data pointer of a record is not complete, it does not point into the page. -/
lemma dataPtr_of_erased {address : ℕ} (hhigh : page (address + 6) = erased) :
    ¬ IsPointerInConfigMemory (recordAt page address).configDataPtr := by
  show ¬ IsPointerInConfigMemory ((page (address + 4)).toNat + 0x10000 * (page (address + 6)).toNat)
  rw [hhigh]
  rintro ⟨-, hlt⟩
  have herased : erased.toNat = 0xffff := by decide
  simp only [flashConfigROMEnd, herased] at hlt
  omega

/-- The record behind the last one ends the list, whether it is programmed or not. -/
lemma isEnd_nullRecord :
    (recordAt (crashedPage t ram page k) (recordAddress t.descriptors.length)).IsEnd := by
  have hcell : ∀ j < 4, crashedPage t ram page k (recordAddress t.descriptors.length + 2 * j) =
      if recordOffset t t.descriptors.length + j < k then
        halfWordAt (ConfigRecordEntry.mk 0 0).bytes j
      else erased := fun j hj => crashedPage_nullRecord hj
  by_cases hk : recordOffset t t.descriptors.length + 1 < k
  · left
    have h0 := hcell 0 (by decide)
    have h1 := hcell 1 (by decide)
    rw [if_pos (by omega)] at h0 h1
    have hzero := descriptorPtr_of_bytes (ConfigRecordEntry.mk 0 0) (by decide)
    rw [← h0, ← h1] at hzero
    exact hzero
  · have h2 := hcell 2 (by decide)
    have h3 := hcell 3 (by decide)
    rw [if_neg (by omega)] at h2 h3
    exact isEnd_of_erased h2 h3

/-- A record that is not begun ends the list. -/
lemma isEnd_of_not_begun (hi : i ≤ t.descriptors.length) (hk : k ≤ recordOffset t i) :
    (recordAt (crashedPage t ram page k) (recordAddress i)).IsEnd := by
  rcases Nat.lt_or_eq_of_le hi with hlt | rfl
  · have hget := List.getElem?_eq_getElem hlt
    have h2 := crashedPage_record ram page k (j := 2) hget (by decide)
    have h3 := crashedPage_record ram page k (j := 3) hget (by decide)
    rw [if_neg (by omega)] at h2 h3
    exact isEnd_of_erased h2 h3
  · exact isEnd_nullRecord

/-! ## Scanning the records after a power loss -/

/-- The records from one of them on. -/
def recordsFrom (page : Page) (i : ℕ) : List ConfigRecordEntry :=
  (List.range' i ((flashConfigROMEnd - flashConfigROMBegin) / sizeofRecord - i)).map fun i =>
    recordAt page (recordAddress i)

lemma records_eq : records page = recordsFrom page 0 := by
  unfold records recordsFrom recordAddress
  rw [List.range_eq_range', Nat.sub_zero]

lemma recordsFrom_eq_cons (hi : i < (flashConfigROMEnd - flashConfigROMBegin) / sizeofRecord) :
    recordsFrom page i = recordAt page (recordAddress i) :: recordsFrom page (i + 1) := by
  obtain ⟨m, hm⟩ := Nat.exists_eq_add_of_lt hi
  unfold recordsFrom
  rw [show (flashConfigROMEnd - flashConfigROMBegin) / sizeofRecord - i = m + 1 by omega,
    show (flashConfigROMEnd - flashConfigROMBegin) / sizeofRecord - (i + 1) = m by omega,
    List.range'_succ, List.map_cons]

lemma scanRecords_of_isEnd {descriptor : ℕ} {memory : DataLoadMemory} {record : ConfigRecordEntry}
    {rest : List ConfigRecordEntry} (h : record.IsEnd) :
    scanRecords descriptor memory (record :: rest) = memory := if_pos h

/-- A complete record is not the end. -/
lemma not_isEnd_recordOf (h : t.descriptors[i]? = some d) : ¬ (recordOf t i).IsEnd := by
  have hdescriptor := descriptorPtr_bounds (List.getElem?_eq_some_iff.mp h).1
  have hdata := (dataAddress_bounds h).1
  simp only [IsPointerInConfigMemory, flashConfigROMBegin, flashConfigROMEnd, allOnes] at *
  simp only [ConfigRecordEntry.IsEnd, recordOf, allOnes]
  omega

/-- A record that is not complete changes nothing, and none behind it does. -/
lemma scanRecords_of_not_complete {j : ℕ} (hj : t.descriptors[j]? = some d)
    (hk : k < recordOffset t j + sizeofRecord / 2) (descriptor : ℕ) (memory : DataLoadMemory) :
    scanRecords descriptor memory (recordsFrom (crashedPage t ram page k) j) = memory := by
  have hlt := (List.getElem?_eq_some_iff.mp hj).1
  have hroom := length_descriptors_lt t
  have hnext := recordOffset_succ hj
  rw [recordsFrom_eq_cons (by omega), scanRecords]
  split
  · rfl
  have hhigh := crashedPage_record ram page k (j := 3) hj (by decide)
  rw [if_neg (by simp only [sizeofRecord] at hk; omega)] at hhigh
  rw [if_neg fun hboth => dataPtr_of_erased hhigh hboth.2, recordsFrom_eq_cons (by omega)]
  exact scanRecords_of_isEnd (isEnd_of_not_begun hlt (by omega))

/-- The scan finds the data of a variable whose record is complete. -/
lemma scanRecords_after_crash (ram : Ram) (page : Page) (k : ℕ)
    (hi : t.descriptors[i]? = some d) (m j : ℕ) (hm : j + m = t.descriptors.length)
    (memory : DataLoadMemory) :
    scanRecords (t.descriptorPtr i) memory (recordsFrom (crashedPage t ram page k) j) =
      if j ≤ i ∧ recordOffset t i + sizeofRecord / 2 ≤ k then .configMemory (dataAddress t i)
      else memory := by
  have hilt := (List.getElem?_eq_some_iff.mp hi).1
  have hroom := length_descriptors_lt t
  induction m generalizing j memory with
  | zero =>
    rw [Nat.add_zero] at hm
    subst hm
    rw [if_neg (by omega), recordsFrom_eq_cons hroom]
    exact scanRecords_of_isEnd isEnd_nullRecord
  | succ m ih =>
    have hj : t.descriptors[j]? = some t.descriptors[j] := List.getElem?_eq_getElem (by omega)
    by_cases hcomplete : recordOffset t j + sizeofRecord / 2 ≤ k
    · have hrest := ih (j + 1) (by omega)
      rw [recordsFrom_eq_cons (by omega), recordAt_of_complete hj hcomplete, scanRecords,
        if_neg (not_isEnd_recordOf hj)]
      by_cases heq : j = i
      · subst heq
        rw [if_pos ⟨rfl, (dataAddress_bounds hj).1⟩, hrest, if_neg (by omega),
          if_pos ⟨le_rfl, hcomplete⟩]
        rfl
      · rw [if_neg fun hboth => heq (descriptorPtr_injective hboth.1), hrest]
        have hiff : j + 1 ≤ i ∧ recordOffset t i + sizeofRecord / 2 ≤ k ↔
            j ≤ i ∧ recordOffset t i + sizeofRecord / 2 ≤ k := by omega
        simp only [hiff]
    · rw [scanRecords_of_not_complete hj (Nat.lt_of_not_le hcomplete), if_neg]
      -- the records behind are not complete either
      rintro ⟨hji, hk⟩
      have hmono : recordOffset t j ≤ recordOffset t i := recordOffset_mono hji
      omega

/-! ## Reading a variable -/

lemma dataAddress_even (t : ConfigTable) (i : ℕ) : dataAddress t i % 2 = 0 := by
  have hsum : ∀ ds : List ConfigVariableDescriptor,
      (ds.map ConfigVariableDescriptor.actualLen).sum % 2 = 0 := by
    intro ds
    induction ds with
    | nil => rfl
    | cons d ds ih =>
      rw [List.map_cons, List.sum_cons]
      unfold ConfigVariableDescriptor.actualLen at *
      omega
  have h := hsum (t.descriptors.take i)
  simp only [dataAddress, flashConfigROMBegin, sizeofRecord]
  omega

/-- A byte of the data, or of the erased page under it. -/
lemma byteAt_after_crash (h : t.descriptors[i]? = some d) {b : ℕ} (hb : b < d.dataLen) :
    byteAt (crashedPage t ram page k) (dataAddress t i + b) =
      if recordOffset t i + (sizeofRecord / 2 + b / 2) < k then ram i b else 0xff := by
  have heven := dataAddress_even t i
  have hcell := crashedPage_data ram page k (j := b / 2) h (by
    unfold ConfigVariableDescriptor.actualLen
    omega)
  unfold byteAt
  rcases Nat.mod_two_eq_zero_or_one b with hparity | hparity
  · rw [if_pos (by omega), show dataAddress t i + b = dataAddress t i + 2 * (b / 2) by omega, hcell]
    split
    · rw [halfWordAt, halfWord_low]
      congr 1
      omega
    · decide
  · rw [if_neg (by omega), show dataAddress t i + b - 1 = dataAddress t i + 2 * (b / 2) by omega,
      hcell]
    split
    · rw [halfWordAt, halfWord_high]
      congr 1
      omega
    · decide

/-- The data of a variable whose record is complete is found. -/
lemma getRecordDataPtr_after_crash (h : t.descriptors[i]? = some d) (ram : Ram) (page : Page)
    (k : ℕ) :
    getRecordDataPtr (crashedPage t ram page k) (t.descriptorPtr i) =
      if recordOffset t i + sizeofRecord / 2 ≤ k then .configMemory (dataAddress t i)
      else .defaultValuesRegion := by
  have hscan := scanRecords_after_crash ram page k h
    t.descriptors.length 0 (by omega) .defaultValuesRegion
  unfold getRecordDataPtr
  rw [records_eq, hscan]
  simp only [Nat.zero_le, true_and]

/-- The data of a variable, as far as it is programmed. -/
lemma valueIn_after_crash (h : t.descriptors[i]? = some d) (ram : Ram) (page : Page) (k : ℕ) :
    (d.valueIn fun b => byteAt (crashedPage t ram page k) (dataAddress t i + b)) =
      d.tornValue (ram i) (k - (recordOffset t i + sizeofRecord / 2)) := by
  apply List.map_congr_left
  intro b hb
  show byteAt _ _ = if b / 2 < _ then ram i b else 0xff
  rw [byteAt_after_crash h (List.mem_range.mp hb)]
  have hiff : recordOffset t i + (sizeofRecord / 2 + b / 2) < k ↔
      b / 2 < k - (recordOffset t i + sizeofRecord / 2) := by omega
  simp only [hiff]

/-- A variable whose record is complete is read from its data, as far as it is programmed. Any other
variable has its default value. -/
theorem readVariable_after_crash (h : t.descriptors[i]? = some d) (ram : Ram) (page : Page)
    (k : ℕ) :
    t.readVariable (crashedPage t ram page k) i d =
      if recordOffset t i + sizeofRecord / 2 ≤ k then
        d.tornValue (ram i) (k - (recordOffset t i + sizeofRecord / 2))
      else d.defaultValue := by
  unfold ConfigTable.readVariable
  rw [getRecordDataPtr_after_crash h]
  by_cases hk : recordOffset t i + sizeofRecord / 2 ≤ k
  · rw [if_pos hk, if_pos hk]
    exact valueIn_after_crash h ram page k
  · rw [if_neg hk, if_neg hk]

/-- When all half-words of the data are programmed, the value is the new one. -/
lemma tornValue_of_complete (d : ConfigVariableDescriptor) (data : ℕ → UInt8) {n : ℕ}
    (hn : d.actualLen / 2 ≤ n) : d.tornValue data n = d.valueIn data := by
  apply List.map_congr_left
  intro b hb
  rw [List.mem_range] at hb
  apply if_pos
  unfold ConfigVariableDescriptor.actualLen at hn
  omega

end Powerboard.Configuration
