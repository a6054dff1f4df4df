import Powerboard.Library.Bytes
import Powerboard.Library.Flash

/-!
# The configuration in the flash memory

`configuration.c`: the values of the configuration variables are kept in one page of the flash
memory, behind a list of records. A record points to the descriptor of a variable and to its data;
the list ends with a null record, or where the page is still erased.

A pointer is the number of its address. The RAM is seen from the variables: `ram i k` is the byte `k`
places behind the start of the variable `i`. Where a variable is matters to the processor, which reads
half-words at even addresses only.
-/

namespace Powerboard.Configuration

open Bytes

/-- `_flashConfigROMBegin` and `FLASH_CONFIG_START_ADDR` -/
def flashConfigROMBegin : ℕ := 0x0800FC00

/-- `_flashConfigROMEnd` -/
def flashConfigROMEnd : ℕ := 0x08010000

/-- `sizeof(configVariableDescriptor_t)` -/
def sizeofDescriptor : ℕ := 20

/-- `sizeof(configRecordEntry_t)` -/
def sizeofRecord : ℕ := 8

/-- An erased half-word. -/
def erased : UInt16 := 0xffff

/-- The half-words of the page, by address. -/
abbrev Page := ℕ → UInt16

/-- The bytes of the variables, and what follows each of them. -/
abbrev Ram := ℕ → ℕ → UInt8

/-! ## The table of descriptors -/

/-- `configVariableDescriptor_t`, with the bytes of the default values in place of a pointer to
them. The length is the `sizeof` of the variable. -/
structure ConfigVariableDescriptor where
  dataPtr : ℕ
  dataLen : ℕ
  defaultValuesRegion : Option (List UInt8)
  dataLen_pos : 0 < dataLen
  length_default : ∀ bytes, defaultValuesRegion = some bytes → bytes.length = dataLen

/-- What `CONFIG_VARIABLE` makes of a `batteryVoltageLevel_t` with this address and default value. -/
def voltageDescriptor (dataPtr : ℕ) (defaultValue : UInt32) : ConfigVariableDescriptor where
  dataPtr := dataPtr
  dataLen := 4
  defaultValuesRegion := some (ofWord defaultValue)
  dataLen_pos := by decide
  length_default := by
    intro bytes h
    rw [← Option.some.inj h]
    rfl

/-- `(descriptor->dataLen + 1) & ~1` -/
def ConfigVariableDescriptor.actualLen (d : ConfigVariableDescriptor) : ℕ := (d.dataLen + 1) / 2 * 2

/-- The descriptors between `_applicationConfigDescriptorsBegin` and
`_applicationConfigDescriptorsEnd`. None is at the null pointer, the last one ends within the 32 bit
addresses, and the page has room for their records and their data. -/
structure ConfigTable where
  descriptors : List ConfigVariableDescriptor
  applicationConfigDescriptorsBegin : ℕ
  begin_pos : 0 < applicationConfigDescriptorsBegin
  end_le : applicationConfigDescriptorsBegin + sizeofDescriptor * descriptors.length ≤ 0x100000000
  fits : sizeofRecord * (descriptors.length + 1) +
    (descriptors.map ConfigVariableDescriptor.actualLen).sum ≤
      flashConfigROMEnd - flashConfigROMBegin

/-- The pointer to a descriptor. -/
def ConfigTable.descriptorPtr (t : ConfigTable) (i : ℕ) : ℕ :=
  t.applicationConfigDescriptorsBegin + sizeofDescriptor * i

/-- `configRecordEntry_t` -/
structure ConfigRecordEntry where
  configDescriptorPtr : ℕ
  configDataPtr : ℕ
  deriving DecidableEq

/-! ## Reading -/

/-- `(void*)~0` -/
def allOnes : ℕ := 0xffffffff

/-- `IS_POINTER_IN_CONFIG_MEMORY` -/
def IsPointerInConfigMemory (ptr : ℕ) : Prop := flashConfigROMBegin ≤ ptr ∧ ptr < flashConfigROMEnd

instance : DecidablePred IsPointerInConfigMemory := fun ptr =>
  inferInstanceAs (Decidable (flashConfigROMBegin ≤ ptr ∧ ptr < flashConfigROMEnd))

/-- The word at an address, the low half-word first. -/
def wordAt (page : Page) (address : ℕ) : ℕ :=
  (page address).toNat + 0x10000 * (page (address + 2)).toNat

/-- The record at an address. -/
def recordAt (page : Page) (address : ℕ) : ConfigRecordEntry :=
  { configDescriptorPtr := wordAt page address, configDataPtr := wordAt page (address + 4) }

/-- The byte at an address, the low byte of a half-word first. -/
def byteAt (page : Page) (address : ℕ) : UInt8 :=
  if address % 2 = 0 then (page address).toUInt8 else (page (address - 1) >>> 8).toUInt8

/-- `configDataLoadMemory`: the default values, where there may be none, or data in the page. -/
inductive DataLoadMemory
  | defaultValuesRegion
  | configMemory (ptr : ℕ)
  deriving DecidableEq

/-- The record marks the end of all records. -/
def ConfigRecordEntry.IsEnd (record : ConfigRecordEntry) : Prop :=
  record.configDescriptorPtr = 0 ∨ record.configDescriptorPtr = allOnes ∨
    record.configDataPtr = 0 ∨ record.configDataPtr = allOnes

instance : DecidablePred ConfigRecordEntry.IsEnd := fun _ => inferInstanceAs (Decidable (_ ∨ _))

/-- The loop of `getRecordDataPtr` over the records. -/
def scanRecords (descriptor : ℕ) (configDataLoadMemory : DataLoadMemory) :
    List ConfigRecordEntry → DataLoadMemory
  | [] => configDataLoadMemory
  | curRecord :: rest =>
    if curRecord.IsEnd then configDataLoadMemory
    else if curRecord.configDescriptorPtr = descriptor ∧
        IsPointerInConfigMemory curRecord.configDataPtr then
      scanRecords descriptor (.configMemory curRecord.configDataPtr) rest
    else scanRecords descriptor configDataLoadMemory rest

/-- All records that fit into the page. -/
def records (page : Page) : List ConfigRecordEntry :=
  (List.range ((flashConfigROMEnd - flashConfigROMBegin) / sizeofRecord)).map fun i =>
    recordAt page (flashConfigROMBegin + sizeofRecord * i)

/-- `getRecordDataPtr` -/
def getRecordDataPtr (page : Page) (descriptor : ℕ) : DataLoadMemory :=
  scanRecords descriptor .defaultValuesRegion (records page)

/-- The default value of a variable: that of its region, or zero. -/
def ConfigVariableDescriptor.defaultValue (d : ConfigVariableDescriptor) : List UInt8 :=
  d.defaultValuesRegion.getD (List.replicate d.dataLen 0)

/-- The bytes of a variable in the RAM. -/
def ConfigVariableDescriptor.valueIn (d : ConfigVariableDescriptor) (data : ℕ → UInt8) :
    List UInt8 :=
  (List.range d.dataLen).map data

/-- What `config_readFromFlash` gives a variable. -/
def ConfigTable.readVariable (t : ConfigTable) (page : Page) (i : ℕ)
    (d : ConfigVariableDescriptor) : List UInt8 :=
  match getRecordDataPtr page (t.descriptorPtr i) with
  | .configMemory ptr => d.valueIn fun k => byteAt page (ptr + k)
  | .defaultValuesRegion => d.defaultValue

/-- `config_readFromFlash`: what every variable holds after it. -/
def configReadFromFlash (t : ConfigTable) (page : Page) : List (List UInt8) :=
  t.descriptors.mapIdx (t.readVariable page)

/-- The RAM after `config_readFromFlash`, which copies `dataLen` bytes to each variable. -/
def ramAfterRead (t : ConfigTable) (page : Page) (ram : Ram) : Ram := fun i k =>
  match (configReadFromFlash t page)[i]? with
  | some value => value.getD k (ram i k)
  | none => ram i k

/-! ## Writing -/

/-- A half-word of the data, the low byte first. -/
def halfWordAt (data : ℕ → UInt8) (i : ℕ) : UInt16 :=
  halfWord (data (2 * i)) (data (2 * i + 1))

/-- `writeWordsToFlash`: the half-words that are programmed, in order. -/
def writeWordsToFlash (dst : ℕ) (data : ℕ → UInt8) (size : ℕ) : List (ℕ × UInt16) :=
  (List.range (size / 2)).map fun i => (dst + 2 * i, halfWordAt data i)

/-- The bytes of a record in memory. -/
def ConfigRecordEntry.bytes (record : ConfigRecordEntry) (k : ℕ) : UInt8 :=
  if k < 4 then UInt8.ofNat (record.configDescriptorPtr / 256 ^ k)
  else UInt8.ofNat (record.configDataPtr / 256 ^ (k - 4))

/-- The loop of `config_updateToFlash` over the descriptors, and the null record behind them. -/
def writeRecords (t : ConfigTable) (ram : Ram) (i dstRecord dataStoragePtr : ℕ) :
    List ConfigVariableDescriptor → List (ℕ × UInt16)
  | [] =>
    let record : ConfigRecordEntry := { configDescriptorPtr := 0, configDataPtr := 0 }
    writeWordsToFlash dstRecord record.bytes sizeofRecord
  | d :: rest =>
    let record : ConfigRecordEntry :=
      { configDescriptorPtr := t.descriptorPtr i, configDataPtr := dataStoragePtr }
    writeWordsToFlash dstRecord record.bytes sizeofRecord ++
      writeWordsToFlash dataStoragePtr (ram i) d.actualLen ++
      writeRecords t ram (i + 1) (dstRecord + sizeofRecord) (dataStoragePtr + d.actualLen) rest

/-- `config_needsUpdate` -/
def configNeedsUpdate (t : ConfigTable) (page : Page) (ram : Ram) : Bool :=
  t.descriptors.zipIdx.any fun (d, i) =>
    match getRecordDataPtr page (t.descriptorPtr i) with
    | .defaultValuesRegion => true
    | .configMemory ptr => d.valueIn (fun k => byteAt page (ptr + k)) ≠ d.valueIn (ram i)

/-- `config_updateToFlash`: the flash operations, in order, if it returns. -/
def configUpdateToFlash (t : ConfigTable) (page : Page) (ram : Ram) :
    List (Flash.Operation ℕ UInt16) :=
  if configNeedsUpdate t page ram then
    let dstRecord := flashConfigROMBegin
    let dataStoragePtr := dstRecord + sizeofRecord * (t.descriptors.length + 1)
    .erasePage :: Flash.programs (writeRecords t ram 0 dstRecord dataStoragePtr t.descriptors)
  else []

/-! ## Writing with HardFaults -/

/-- What a function does up to its return, or up to a HardFault, which does not return. -/
structure Execution (α : Type) where
  operations : List α
  returns : Bool
  deriving DecidableEq

namespace Execution
variable {α : Type}

def done (operations : List α) : Execution α := { operations := operations, returns := true }

def hardFault : Execution α := { operations := [], returns := false }

def andThen (e next : Execution α) : Execution α :=
  if e.returns then { operations := e.operations ++ next.operations, returns := next.returns } else e

end Execution

/-- The loop of `writeWordsToFlash` from `i` on: each half-word is read, and then programmed. -/
def execWriteWords (dst dataPtr : ℕ) (data : ℕ → UInt8) :
    List ℕ → Execution (ℕ × UInt16)
  | [] => .done []
  | i :: rest =>
    if (dataPtr + 2 * i) % 2 = 0 then
      (Execution.done [(dst + 2 * i, halfWordAt data i)]).andThen
        (execWriteWords dst dataPtr data rest)
    else .hardFault

/-- `writeWordsToFlash` with the data at this address. -/
def execWriteWordsToFlash (dst dataPtr : ℕ) (data : ℕ → UInt8) (size : ℕ) :
    Execution (ℕ × UInt16) :=
  execWriteWords dst dataPtr data (List.range (size / 2))

/-- The loop of `config_updateToFlash` with the reads of the variables. The records are on the stack,
at addresses that are multiples of 4. -/
def execWriteRecords (t : ConfigTable) (ram : Ram) (i dstRecord dataStoragePtr : ℕ) :
    List ConfigVariableDescriptor → Execution (ℕ × UInt16)
  | [] =>
    let record : ConfigRecordEntry := { configDescriptorPtr := 0, configDataPtr := 0 }
    .done (writeWordsToFlash dstRecord record.bytes sizeofRecord)
  | d :: rest =>
    let record : ConfigRecordEntry :=
      { configDescriptorPtr := t.descriptorPtr i, configDataPtr := dataStoragePtr }
    (Execution.done (writeWordsToFlash dstRecord record.bytes sizeofRecord)).andThen
      ((execWriteWordsToFlash dataStoragePtr d.dataPtr (ram i) d.actualLen).andThen
        (execWriteRecords t ram (i + 1) (dstRecord + sizeofRecord) (dataStoragePtr + d.actualLen)
          rest))

/-- `config_updateToFlash`, up to its return or to a HardFault. -/
def execConfigUpdateToFlash (t : ConfigTable) (page : Page) (ram : Ram) :
    Execution (Flash.Operation ℕ UInt16) :=
  if configNeedsUpdate t page ram then
    let dstRecord := flashConfigROMBegin
    let dataStoragePtr := dstRecord + sizeofRecord * (t.descriptors.length + 1)
    let e := execWriteRecords t ram 0 dstRecord dataStoragePtr t.descriptors
    { operations := .erasePage :: Flash.programs e.operations, returns := e.returns }
  else .done []

/-- Every variable is at an even address. -/
def ConfigTable.Even (t : ConfigTable) : Prop := ∀ d ∈ t.descriptors, d.dataPtr % 2 = 0

/-! ## Saves and power losses -/

/-- The page after a completed save. -/
def save (t : ConfigTable) (page : Page) (ram : Ram) : Page :=
  Flash.run erased page (configUpdateToFlash t page ram)

/-- The page after completed saves of these values, from an erased page. -/
def pageAfter (t : ConfigTable) (saves : List Ram) : Page := saves.foldl (save t) fun _ => erased

/-- The page after a power loss during a save: the first `k` flash operations are done. -/
def pageAfterCrash (t : ConfigTable) (saves : List Ram) (ram : Ram) (k : ℕ) : Page :=
  Flash.run erased (pageAfter t saves) ((configUpdateToFlash t (pageAfter t saves) ram).take k)

/-- The stored value of a variable: that of the last save, or the default value before the first
one. -/
def storedValue (saves : List Ram) (i : ℕ) (d : ConfigVariableDescriptor) : List UInt8 :=
  match saves.getLast? with
  | some ram => d.valueIn (ram i)
  | none => d.defaultValue

/-- The value is the stored one, the new one, or the default one. -/
def Expected (saves : List Ram) (ram : Ram) (i : ℕ) (d : ConfigVariableDescriptor)
    (value : List UInt8) : Prop :=
  value = storedValue saves i d ∨ value = d.valueIn (ram i) ∨ value = d.defaultValue

/-- After the power loss every variable is read with an expected value. -/
def SurvivesCrash (t : ConfigTable) (saves : List Ram) (ram : Ram) (k : ℕ) : Prop :=
  ∀ i d, t.descriptors[i]? = some d →
    ∃ value, (configReadFromFlash t (pageAfterCrash t saves ram k))[i]? = some value ∧
      Expected saves ram i d value

/-- The number of half-words that are programmed before the record of a variable. -/
def recordOffset (t : ConfigTable) (i : ℕ) : ℕ :=
  ((t.descriptors.take i).map fun d => sizeofRecord / 2 + d.actualLen / 2).sum

/-- A value of which the first `n` half-words are written over an erased page. -/
def ConfigVariableDescriptor.tornValue (d : ConfigVariableDescriptor) (data : ℕ → UInt8) (n : ℕ) :
    List UInt8 :=
  d.valueIn fun k => if k / 2 < n then data k else 0xff

/-- If the power loss comes when the record of a variable is written and its data is not, then what
is there of the data happens to be an expected value. -/
def CrashOutsideData (t : ConfigTable) (saves : List Ram) (ram : Ram) (k : ℕ) : Prop :=
  configNeedsUpdate t (pageAfter t saves) ram = true →
    ∀ i d n, t.descriptors[i]? = some d → n < d.actualLen / 2 →
      k = 1 + recordOffset t i + sizeofRecord / 2 + n →
      Expected saves ram i d (d.tornValue (ram i) n)

end Powerboard.Configuration
