import Powerboard.Configuration.ConfigurationTheorems

/-!
# Saving and loading the configuration

After a completed save the page needs no update, and every variable is read back with the value that
it had (`save_then_read`), whatever was in the page before. A save is completed if all variables are at
even addresses. At the first one that is not, the processor comes to a HardFault, and the flash
operations up to there are those of a save that is cut off.
-/

namespace Powerboard.Configuration

open Flash

variable {t : ConfigTable} {ram : Ram} {page : Page} {d : ConfigVariableDescriptor} {i k : ℕ}
  {saves : List Ram}

/-! ## Completed saves -/

lemma configUpdateToFlash_of_needsUpdate (h : configNeedsUpdate t page ram = true) :
    configUpdateToFlash t page ram = .erasePage :: programs (blocks t ram).flatten := by
  unfold configUpdateToFlash
  rw [if_pos h]
  dsimp only
  rw [writeRecords_eq_flatten]

/-- A completed save leaves the page as a power loss after its last operation does. -/
lemma save_of_needsUpdate (h : configNeedsUpdate t page ram = true) :
    save t page ram = crashedPage t ram page (blocks t ram).flatten.length := by
  unfold save crashedPage
  rw [configUpdateToFlash_of_needsUpdate h, List.take_of_length_le]
  rw [List.length_cons, length_programs]

/-- The half-words of a variable are all programmed at the end. -/
lemma recordOffset_le_length (ram : Ram) (h : t.descriptors[i]? = some d) :
    recordOffset t i + sizeofRecord / 2 + d.actualLen / 2 ≤ (blocks t ram).flatten.length := by
  have hlast := cell_of_nullRecord t ram (show 3 < sizeofRecord / 2 by decide)
  have hlt := (List.getElem?_eq_some_iff.mp hlast).1
  have hmono : recordOffset t (i + 1) ≤ recordOffset t t.descriptors.length :=
    recordOffset_mono (List.getElem?_eq_some_iff.mp h).1
  rw [recordOffset_succ h] at hmono
  omega

/-- When nothing needs an update, every variable is read with the value it has. -/
lemma readVariable_of_not_needsUpdate (h : configNeedsUpdate t page ram = false)
    (hd : t.descriptors[i]? = some d) : t.readVariable page i d = d.valueIn (ram i) := by
  unfold configNeedsUpdate at h
  rw [List.any_eq_false] at h
  have hmem : (d, i) ∈ t.descriptors.zipIdx := List.mk_mem_zipIdx_iff_getElem?.mpr hd
  have hentry := h (d, i) hmem
  unfold ConfigTable.readVariable
  dsimp only at hentry
  generalize getRecordDataPtr page (t.descriptorPtr i) = memory at hentry
  cases memory with
  | defaultValuesRegion => exact absurd rfl hentry
  | configMemory ptr => simpa using hentry

/-- A save that is not needed leaves the page. -/
lemma save_of_not_needsUpdate (h : configNeedsUpdate t page ram = false) :
    save t page ram = page := by
  unfold save configUpdateToFlash
  rw [h]
  rfl

/-- A completed save is read back, whatever was in the page. -/
theorem readVariable_save (page : Page) (ram : Ram) (h : t.descriptors[i]? = some d) :
    t.readVariable (save t page ram) i d = d.valueIn (ram i) := by
  cases hneeds : configNeedsUpdate t page ram with
  | true =>
    have hend := recordOffset_le_length ram h
    -- a completed save is one that is cut off behind the last half-word
    rw [save_of_needsUpdate hneeds, readVariable_after_crash h, if_pos (by omega)]
    exact tornValue_of_complete d _ (by omega)
  | false =>
    rw [save_of_not_needsUpdate hneeds]
    exact readVariable_of_not_needsUpdate hneeds h

/-- An erased page has no records. -/
lemma readVariable_erased (t : ConfigTable) (i : ℕ) (d : ConfigVariableDescriptor) :
    t.readVariable (fun _ => erased) i d = d.defaultValue := by
  unfold ConfigTable.readVariable getRecordDataPtr
  rw [records_eq, recordsFrom_eq_cons (by decide), scanRecords_of_isEnd (isEnd_of_erased rfl rfl)]

/-- After completed saves every variable is read with its stored value. -/
theorem readVariable_pageAfter (saves : List Ram) (h : t.descriptors[i]? = some d) :
    t.readVariable (pageAfter t saves) i d = storedValue saves i d := by
  unfold pageAfter storedValue
  induction saves using List.reverseRecOn with
  | nil => exact readVariable_erased t i d
  | append_singleton saves ram _ =>
    rw [List.foldl_append, List.getLast?_concat]
    exact readVariable_save _ ram h

/-! ## Saving is idempotent, and loading is its inverse -/

lemma configReadFromFlash_getElem? (page : Page) (h : t.descriptors[i]? = some d) :
    (configReadFromFlash t page)[i]? = some (t.readVariable page i d) := by
  unfold configReadFromFlash
  rw [List.getElem?_mapIdx, h]
  rfl

lemma length_defaultValue (d : ConfigVariableDescriptor) : d.defaultValue.length = d.dataLen := by
  unfold ConfigVariableDescriptor.defaultValue
  cases hdefault : d.defaultValuesRegion with
  | none => exact List.length_replicate
  | some bytes => exact d.length_default bytes hdefault

lemma length_readVariable (t : ConfigTable) (page : Page) (i : ℕ) (d : ConfigVariableDescriptor) :
    (t.readVariable page i d).length = d.dataLen := by
  unfold ConfigTable.readVariable
  split
  · simp [ConfigVariableDescriptor.valueIn]
  · exact length_defaultValue d

/-- Loading copies the bytes that are read for a variable. -/
lemma ramAfterRead_eq (page : Page) (ram : Ram) (h : t.descriptors[i]? = some d) (k : ℕ) :
    ramAfterRead t page ram i k = (t.readVariable page i d).getD k (ram i k) := by
  unfold ramAfterRead
  rw [configReadFromFlash_getElem? page h]

/-- After loading a variable has the bytes that are read for it. -/
lemma valueIn_ramAfterRead (page : Page) (ram : Ram) (h : t.descriptors[i]? = some d) :
    d.valueIn (ramAfterRead t page ram i) = t.readVariable page i d := by
  have hlen := length_readVariable t page i d
  apply List.ext_getElem
  · rw [hlen]
    simp [ConfigVariableDescriptor.valueIn]
  · intro k hk hk'
    simp [ConfigVariableDescriptor.valueIn, ramAfterRead_eq page ram h, hk']

namespace Execution
variable {α : Type}

@[simp] lemma done_andThen (operations : List α) (next : Execution α) :
    (done operations).andThen next =
      { operations := operations ++ next.operations, returns := next.returns } := rfl

end Execution

lemma execWriteWords_of_even {dst dataPtr : ℕ} (data : ℕ → UInt8) (heven : dataPtr % 2 = 0)
    (is : List ℕ) :
    execWriteWords dst dataPtr data is =
      .done (is.map fun i => (dst + 2 * i, halfWordAt data i)) := by
  induction is with
  | nil => rfl
  | cons i is ih =>
    rw [execWriteWords, if_pos (by omega), ih]
    rfl

lemma execWriteWordsToFlash_of_even {dst dataPtr : ℕ} (data : ℕ → UInt8) (size : ℕ)
    (heven : dataPtr % 2 = 0) :
    execWriteWordsToFlash dst dataPtr data size = .done (writeWordsToFlash dst data size) :=
  execWriteWords_of_even data heven _

/-- The first read of a variable at an odd address is a HardFault. -/
lemma execWriteWordsToFlash_of_odd (d : ConfigVariableDescriptor) (dst : ℕ) (data : ℕ → UInt8)
    (hodd : d.dataPtr % 2 ≠ 0) :
    execWriteWordsToFlash dst d.dataPtr data d.actualLen = .hardFault := by
  have hpos := d.dataLen_pos
  obtain ⟨n, hn⟩ : ∃ n, d.actualLen / 2 = n + 1 := by
    unfold ConfigVariableDescriptor.actualLen
    exact ⟨(d.dataLen + 1) / 2 - 1, by omega⟩
  rw [execWriteWordsToFlash, hn, List.range_succ_eq_map, execWriteWords, if_neg (by omega)]

section Loop
variable (t : ConfigTable) (ram : Ram)

/-- It comes as far as a save that is cut off. -/
lemma execWriteRecords_isPrefix (ds : List ConfigVariableDescriptor) (i dst storage : ℕ) :
    (execWriteRecords t ram i dst storage ds).operations <+:
      writeRecords t ram i dst storage ds := by
  induction ds generalizing i dst storage with
  | nil => exact List.prefix_rfl
  | cons d ds ih =>
    rw [execWriteRecords, writeRecords, List.append_assoc, Execution.done_andThen]
    apply (List.prefix_append_right_inj _).mpr
    by_cases heven : d.dataPtr % 2 = 0
    · rw [execWriteWordsToFlash_of_even _ _ heven, Execution.done_andThen]
      exact (List.prefix_append_right_inj _).mpr (ih _ _ _)
    · rw [execWriteWordsToFlash_of_odd d _ _ heven]
      exact List.nil_prefix

lemma execWriteRecords_of_even {ds : List ConfigVariableDescriptor}
    (heven : ∀ d ∈ ds, d.dataPtr % 2 = 0) (i dst storage : ℕ) :
    execWriteRecords t ram i dst storage ds = .done (writeRecords t ram i dst storage ds) := by
  induction ds generalizing i dst storage with
  | nil => rfl
  | cons d ds ih =>
    obtain ⟨hd, hds⟩ := List.forall_mem_cons.mp heven
    rw [execWriteRecords, writeRecords, execWriteWordsToFlash_of_even _ _ hd, ih hds]
    rw [List.append_assoc]
    rfl

end Loop

/-- With all variables at even addresses `config_updateToFlash` returns. -/
theorem execConfigUpdateToFlash_of_even (heven : t.Even) (page : Page) (ram : Ram) :
    execConfigUpdateToFlash t page ram = .done (configUpdateToFlash t page ram) := by
  unfold execConfigUpdateToFlash configUpdateToFlash
  split
  · simp only [execWriteRecords_of_even t ram heven, Execution.done]
  · rfl

/-- The flash operations up to a HardFault are those up to some power loss. -/
theorem execConfigUpdateToFlash_isPrefix (t : ConfigTable) (page : Page) (ram : Ram) :
    (execConfigUpdateToFlash t page ram).operations <+: configUpdateToFlash t page ram := by
  unfold execConfigUpdateToFlash configUpdateToFlash
  split
  · exact (List.prefix_cons_inj _).mpr ((execWriteRecords_isPrefix t ram _ _ _ _).map _)
  · exact List.prefix_rfl

end Powerboard.Configuration
