import Baldur.Lib.Ordered
import Baldur.Wal.WalCore
import Mathlib.Algebra.Order.Ring.Unbundled.Rat
import Mathlib.Algebra.Order.Ring.Cast

/-!
The bytes of a log file: a header, then records of a length, a checksum in hexadecimal and a JSON text.
Recovery verifies checksums and scans on behind an overlong length; the scan before a deletion does neither.
-/

namespace Baldur.Wal.RecordBytes

open List Bool

variable {bestEffort recovery : Bool}

abbrev Bytes := List UInt8

structure RawEntry (ν : Type) where
  seq : ν
  ts : ν
  data : ν
  deriving DecidableEq

def hexDigit (byte : UInt8) : Bool :=
  48 ≤ byte && byte ≤ 57 || 97 ≤ byte && byte ≤ 102

def lower (byte : UInt8) : UInt8 :=
  if 65 ≤ byte && byte ≤ 90 then byte + 32 else byte

def ascii (byte : UInt8) : Bool :=
  byte < 128

/-- `field` looks a key up in the object a text decodes to; a text that is no object has no field.
`integer` is the value of an `int`, `number` that of anything that compares with one. -/
structure Codec (ν : Type) where
  field : Bytes → String → Option ν
  computeChecksum : Bytes → Bytes
  integer : ν → Option Int
  number : ν → Option ℚ
  eight : ∀ text, (computeChecksum text).length = 8
  hex : ∀ text, ∀ digit ∈ computeChecksum text, hexDigit digit = true
  number_of_integer : ∀ value n, integer value = some n → number value = some n

def unpack (a b c d : UInt8) : Nat :=
  ((a.toNat * 256 + b.toNat) * 256 + c.toNat) * 256 + d.toNat

def pack (length : Nat) : Bytes :=
  [.ofNat (length / 2 ^ 24), .ofNat (length / 2 ^ 16), .ofNat (length / 2 ^ 8), .ofNat length]

inductive Head
  | stop
  | overlong (rest : Bytes)
  | record (checksum text rest : Bytes)

def head : Bytes → Head
  | a :: b :: c :: d :: rest =>
      if maxRecordSizeBytes < unpack a b c d then .overlong rest
      else if rest.length < 8 + unpack a b c d then .stop
      else .record (rest.take 8) ((rest.drop 8).take (unpack a b c d)) (rest.drop (8 + unpack a b c d))
  | _ => .stop

def resync : (budget : Nat) → Bytes → Option Bytes
  | 0, _ => none
  | _, [] => none
  | budget + 1, byte :: rest =>
      if ((rest.drop 3).take 8).length = 8 && ((rest.drop 3).take 8).all fun digit => hexDigit (lower digit) then
        some (byte :: rest)
      else resync budget rest

/-- Of up to 1 MiB the first eight hexadecimal digits that end at byte 21 or later; the record is taken
to begin four bytes before them. -/
def scanForValidRecord (rest : Bytes) : Option Bytes :=
  resync (1024 * 1024 - 20) (rest.drop 9)

def magic : Bytes := [65, 87, 65, 76]

def overBody {β : Type} (walk : (fuel : Nat) → Bytes → List β) (file : Bytes) : List β :=
  if file.length < headerSize ∨ file.take 4 ≠ magic then [] else walk file.length (file.drop headerSize)

namespace Codec

variable {ν : Type} (codec : Codec ν)

def verifyChecksum (text checksum : Bytes) : Bool :=
  codec.computeChecksum text = checksum.map lower

def parseWalRecord (text : Bytes) : Option (RawEntry ν) := do
  return ⟨← codec.field text "seq", ← codec.field text "ts", ← codec.field text "data"⟩

/-- `recovery` is `best_effort_recovery` of the configuration. -/
def readRecords (bestEffort recovery : Bool) : (fuel : Nat) → Bytes → List (RawEntry ν)
  | 0, _ => []
  | fuel + 1, bytes =>
      match head bytes with
      | .stop => []
      | .overlong rest =>
          if bestEffort && recovery then
            match scanForValidRecord rest with
            | none => []
            | some found => readRecords bestEffort recovery fuel found
          else []
      | .record checksum text rest =>
          -- A strict read decodes the checksum as ASCII and ends with the exception.
          if !bestEffort && !checksum.all ascii then []
          else
            match if codec.verifyChecksum text checksum then codec.parseWalRecord text else none with
            | some entry => entry :: readRecords bestEffort recovery fuel rest
            | none => if bestEffort && !recovery then [] else readRecords bestEffort recovery fuel rest

def readFile (bestEffort recovery : Bool) (file : Bytes) : List (RawEntry ν) :=
  overBody (codec.readRecords bestEffort recovery) file

def sequences : (fuel : Nat) → Bytes → List Int
  | 0, _ => []
  | fuel + 1, bytes =>
      match head bytes with
      | .record _ text rest => ((codec.field text "seq").bind codec.integer).toList ++ sequences fuel rest
      | _ => []

def getFileMaxSequence (file : Bytes) : Int :=
  (overBody codec.sequences file).foldl max 0

/-- The turn of `cleanup_processed` for the file, with an unlink that succeeds. -/
def cleanupUnlinks (file : Bytes) (current livePeer : Bool) (lastProcessedSeq : Int) : Bool :=
  !current && !livePeer && 0 < codec.getFileMaxSequence file && codec.getFileMaxSequence file ≤ lastProcessedSeq

end Codec

/-!
Files as the writer leaves them, cut short and with records altered.
-/

variable {ν : Type} {codec : Codec ν}

structure Serialized (codec : Codec ν) where
  entry : RawEntry ν
  text : Bytes
  sized : text.length < 2 ^ 32
  decodes : codec.parseWalRecord text = some entry

structure Written (codec : Codec ν) where
  original : Serialized codec
  checksum : Bytes
  text : Bytes
  eight : checksum.length = 8
  same : text.length = original.text.length

variable {records : List (Written codec)}

namespace Written

variable (record : Written codec)

def bytes : Bytes :=
  pack record.original.text.length ++ (record.checksum ++ record.text)

def intact : Bool :=
  record.checksum = codec.computeChecksum record.original.text && record.text = record.original.text

def rejected : Bool :=
  !codec.verifyChecksum record.text record.checksum

def before : (cut : Nat) → List (Written codec) → List (Written codec)
  | _, [] => []
  | cut, record :: rest =>
      if record.bytes.length ≤ cut then record :: before (cut - record.bytes.length) rest else []

def intactBefore (cut : Nat) (records : List (Written codec)) : List (RawEntry ν) :=
  ((before cut records).filter intact).map fun record => record.original.entry

end Written

def Serialized.written (entry : Serialized codec) : Written codec where
  original := entry
  checksum := codec.computeChecksum entry.text
  text := entry.text
  eight := codec.eight _
  same := rfl

def Serialized.spoiled (entry : Serialized codec) : Written codec where
  original := entry
  checksum := List.replicate 8 0
  text := entry.text
  eight := rfl
  same := rfl

theorem unpack_pack {length : Nat} (sized : length < 2 ^ 32) :
    unpack (.ofNat (length / 2 ^ 24)) (.ofNat (length / 2 ^ 16)) (.ofNat (length / 2 ^ 8)) (.ofNat length) =
      length := by
  simp only [unpack, UInt8.toNat_ofNat']
  omega

theorem lower_hex {byte : UInt8} (digit : hexDigit byte = true) : lower byte = byte ∧ ascii byte = true := by
  simp only [hexDigit, lower, ascii, or_eq_true, and_eq_true, decide_eq_true_eq, UInt8.le_iff_toNat_le,
    UInt8.lt_iff_toNat_lt] at digit ⊢
  refine ⟨if_neg ?_, ?_⟩
  · rintro ⟨above, below⟩
    simp at digit above below
    omega
  · simp at digit ⊢
    omega

namespace Written

variable {record : Written codec} {rest : Bytes} {cut : Nat}

theorem length_bytes (record : Written codec) : record.bytes.length = 12 + record.original.text.length := by
  simp [bytes, pack, record.eight, record.same]
  omega

theorem head_whole (short : record.original.text.length ≤ maxRecordSizeBytes) (rest : Bytes) :
    head (record.bytes ++ rest) = .record record.checksum record.text rest := by
  have length := unpack_pack record.original.sized
  have eight := record.eight
  have same := record.same
  simp only [bytes, pack, cons_append, nil_append, head, length, append_assoc]
  rw [if_neg (Nat.not_lt.mpr short), if_neg (by simp; omega), take_left' eight, drop_left' eight,
    take_left' same, ← append_assoc, drop_left' (by simp; omega)]

theorem head_overlong (long : maxRecordSizeBytes < record.original.text.length) (rest : Bytes) :
    head (record.bytes ++ rest) = .overlong (record.checksum ++ record.text ++ rest) := by
  simp only [bytes, pack, cons_append, nil_append, head, unpack_pack record.original.sized]
  rw [if_pos long]

theorem head_torn (short : record.original.text.length ≤ maxRecordSizeBytes)
    (torn : cut < record.bytes.length) : head ((record.bytes ++ rest).take cut) = .stop := by
  rw [length_bytes] at torn
  match cut with
  | 0 | 1 | 2 | 3 => rfl
  | cut + 4 =>
    simp only [bytes, pack, cons_append, nil_append, take_succ_cons, head, unpack_pack record.original.sized]
    rw [if_neg (Nat.not_lt.mpr short), if_pos (by simp; omega)]

theorem verified (intact : record.intact = true) :
    record.text = record.original.text ∧ codec.verifyChecksum record.original.text record.checksum = true := by
  simp only [Written.intact, Bool.and_eq_true, decide_eq_true_eq] at intact
  obtain ⟨checksum, text⟩ := intact
  refine ⟨text, ?_⟩
  have same : (codec.computeChecksum record.original.text).map lower =
      (codec.computeChecksum record.original.text).map id :=
    map_congr_left fun digit member => (lower_hex (codec.hex _ digit member)).1
  simp [Codec.verifyChecksum, checksum, same]

attribute [local simp] intactBefore

theorem readRecords_before {fuel : Nat} (short : ∀ record ∈ records, record.original.text.length ≤ maxRecordSizeBytes)
    (altered : ∀ record ∈ records, record.intact = true ∨ record.rejected = true)
    (decodable : bestEffort = false → ∀ record ∈ records, record.checksum.all ascii = true)
    (goesOn : bestEffort = true → recovery = true ∨ records.length ≤ 1)
    (enough : ((records.flatMap bytes).take cut).length < fuel) :
    codec.readRecords bestEffort recovery fuel ((records.flatMap bytes).take cut) = intactBefore cut records := by
  induction records generalizing cut fuel with
  | nil =>
    cases fuel with
    | zero => simp at enough
    | succ => simp [Codec.readRecords, head, before]
  | cons record rest ih =>
    obtain ⟨fuel, rfl⟩ : ∃ less, fuel = less + 1 := Nat.exists_eq_add_one.mpr (Nat.zero_lt_of_lt enough)
    have shortHere := short record (by simp)
    have length := record.length_bytes
    rw [flatMap_cons] at enough ⊢
    by_cases whole : record.bytes.length ≤ cut
    · have split : (record.bytes ++ rest.flatMap bytes).take cut =
          record.bytes ++ (rest.flatMap bytes).take (cut - record.bytes.length) := by
        rw [take_append, take_of_length_le whole]
      rw [split, length_append] at enough
      have onward := ih (fun other member => short other (by simp [member]))
        (fun other member => altered other (by simp [member]))
        (fun strict other member => decodable strict other (by simp [member]))
        (fun best => (goesOn best).imp_right fun few => by simp at few; simp [few])
        (show ((rest.flatMap bytes).take (cut - record.bytes.length)).length < fuel by omega)
      have readable : (!bestEffort && !record.checksum.all ascii) = false := by
        cases bestEffort with
        | true => rfl
        | false => simp [decodable rfl record (by simp)]
      rw [split, Codec.readRecords, head_whole shortHere]
      simp only [readable, false_eq_true, if_false, onward]
      by_cases intact : record.intact = true
      · obtain ⟨text, checked⟩ := verified intact
        simp [text, checked, record.original.decodes, before, whole, intact]
      · have rejected : codec.verifyChecksum record.text record.checksum = false := by
          simpa [rejected, intact] using altered record (by simp)
        simp only [rejected, false_eq_true, if_false, intactBefore, before, whole, if_true,
          filter_cons_of_neg intact]
        split
        · rename_i ends
          simp only [and_eq_true, not_eq_true'] at ends
          have few := (goesOn ends.1).resolve_left (by simp [ends.2])
          obtain rfl : rest = [] := by simpa using few
          rfl
        · rfl
    · rw [Codec.readRecords, head_torn shortHere (Nat.not_le.mp whole)]
      simp [before, whole]

theorem readRecords_overlong (codec : Codec ν) (recovery : Bool) {records : List (Written codec)}
    (long : ∃ record ∈ records, maxRecordSizeBytes < record.original.text.length) (fuel : Nat) :
    (codec.readRecords false recovery fuel (records.flatMap bytes)).length < records.length := by
  induction records generalizing fuel with
  | nil => simp at long
  | cons record rest ih =>
    cases fuel with
    | zero => simp [Codec.readRecords]
    | succ fuel =>
      rw [flatMap_cons, Codec.readRecords]
      by_cases longHere : maxRecordSizeBytes < record.original.text.length
      · simp [head_overlong longHere]
      · have onward := ih (by simpa [longHere] using long) fuel
        simp only [head_whole (Nat.not_lt.mp longHere), length_cons]
        split
        · simp
        · split
          · simpa using onward
          · simpa using Nat.lt_succ_of_lt onward

theorem before_all (records : List (Written codec)) (past : (records.flatMap bytes).length ≤ cut) :
    before cut records = records := by
  induction records generalizing cut with
  | nil => rfl
  | cons record rest ih =>
    rw [flatMap_cons, length_append] at past
    rw [before, if_pos (by omega), ih (by omega)]

end Written

open Written in
def fileOf (version : Nat) (records : List (Written codec)) : Bytes :=
  magic ++ pack version ++ records.flatMap bytes

attribute [local simp] Codec.readFile Codec.readRecords fileOf overBody Function.comp_def

theorem readFile_take (bestEffort recovery : Bool) (version : Nat) (records : List (Written codec)) (cut : Nat) :
    codec.readFile bestEffort recovery ((fileOf version records).take cut) =
      codec.readRecords bestEffort recovery ((fileOf version records).take cut).length
        ((records.flatMap Written.bytes).take (cut - headerSize)) := by
  match cut with
  | 0 | 1 | 2 | 3 | 4 | 5 | 6 | 7 => simp [magic, pack, headerSize, head]
  | cut + 8 => simp [magic, pack, headerSize]

theorem readFile_whole (bestEffort recovery : Bool) (version : Nat) (records : List (Written codec)) :
    codec.readFile bestEffort recovery (fileOf version records) = codec.readRecords bestEffort recovery
      (fileOf version records).length (records.flatMap Written.bytes) := by
  simp [magic, pack, headerSize]

theorem length_fileOf (version : Nat) (records : List (Written codec)) :
    (fileOf version records).length - headerSize = (records.flatMap Written.bytes).length := by
  simp [magic, pack, headerSize]

theorem readFile_before (version : Nat) (short : ∀ record ∈ records, record.original.text.length ≤ maxRecordSizeBytes)
    (altered : ∀ record ∈ records, record.intact = true ∨ record.rejected = true)
    (decodable : bestEffort = false → ∀ record ∈ records, record.checksum.all ascii = true)
    (goesOn : bestEffort = true → recovery = true ∨ records.length ≤ 1) (cut : Nat) :
    codec.readFile bestEffort recovery ((fileOf version records).take cut) =
      Written.intactBefore (cut - headerSize) records := by
  rw [readFile_take]
  by_cases headed : headerSize ≤ cut
  · refine Written.readRecords_before short altered decodable goesOn ?_
    simp only [fileOf, magic, pack, headerSize, length_take, length_append, length_cons, length_nil] at headed ⊢
    omega
  · have none : cut - headerSize = 0 := by omega
    have empty : Written.intactBefore 0 records = [] := by
      cases records with
      | nil => rfl
      | cons record => simp [Written.intactBefore, Written.before, record.length_bytes]
    rw [none, empty, take_zero]
    cases ((fileOf version records).take cut).length <;> simp [head]

theorem Serialized.intact_written (entry : Serialized codec) : entry.written.intact = true := by
  simp [Written.intact, written]

attribute [local simp] Serialized.intact_written

theorem intactBefore_written (entries : List (Serialized codec)) {cut : Nat}
    (past : ((entries.map Serialized.written).flatMap Written.bytes).length ≤ cut) :
    Written.intactBefore cut (entries.map Serialized.written) = entries.map Serialized.entry := by
  have kept : ∀ record ∈ entries.map Serialized.written, record.intact = true := by
    simp
  rw [Written.intactBefore, Written.before_all _ past, filter_eq_self.mpr kept, map_map]
  rfl

theorem Serialized.rejected_spoiled (entry : Serialized codec) : entry.spoiled.rejected = true := by
  have digits := codec.hex entry.text
  simp only [Written.rejected, spoiled, Codec.verifyChecksum, Bool.not_eq_true']
  refine decide_eq_false fun zero => ?_
  rw [zero] at digits
  have digit := digits 0 (by decide)
  simp [hexDigit] at digit

theorem readRecords_spoiled {first : Serialized codec} (short : first.text.length ≤ maxRecordSizeBytes) (fuel : Nat)
    (rest : Bytes) : codec.readRecords true false fuel (first.spoiled.bytes ++ rest) = [] := by
  have whole : head (first.spoiled.bytes ++ rest) = .record _ _ rest := Written.head_whole short rest
  have rejected : codec.verifyChecksum first.spoiled.text first.spoiled.checksum = false := by
    simpa [Written.rejected] using first.rejected_spoiled
  cases fuel with
  | zero => rfl
  | succ => simp [whole, rejected]

/-- Both reads return exactly the intact records before every cut, under every alteration that the checksum
rejects, exactly when no text is too long for the reader and, unless `best_effort_recovery` is on, there is
no second entry. -/
theorem intact_records_read_iff (codec : Codec ν) (recovery : Bool) (version : Nat)
    (entries : List (Serialized codec)) :
    (∀ records : List (Written codec), records.map Written.original = entries →
        (∀ record ∈ records, record.intact = true ∨ record.rejected = true) → ∀ cut,
        codec.readFile true recovery ((fileOf version records).take cut) =
            Written.intactBefore (cut - headerSize) records ∧
          ((∀ record ∈ records, record.checksum.all ascii = true) →
            codec.readFile false recovery ((fileOf version records).take cut) =
              Written.intactBefore (cut - headerSize) records)) ↔
      (∀ entry ∈ entries, entry.text.length ≤ maxRecordSizeBytes) ∧ (recovery = true ∨ entries.length ≤ 1) := by
  constructor
  · intro exact
    have short : ∀ entry ∈ entries, entry.text.length ≤ maxRecordSizeBytes := by
      by_contra long
      have whole := (exact (entries.map Serialized.written) (by simp [Serialized.written])
        (by simp) (fileOf version (entries.map Serialized.written)).length).2
          (forall_mem_map.mpr fun entry _ => all_eq_true.mpr fun digit member =>
            (lower_hex (codec.hex entry.text digit member)).2)
      rw [take_length, readFile_whole, length_fileOf, intactBefore_written entries (Nat.le_refl _)] at whole
      have longer : ∃ record ∈ entries.map Serialized.written, maxRecordSizeBytes < record.original.text.length := by
        simpa [Serialized.written] using long
      have fewer := Written.readRecords_overlong codec recovery longer
        (fileOf version (entries.map Serialized.written)).length
      rw [whole, length_map, length_map] at fewer
      exact Nat.lt_irrefl _ fewer
    refine ⟨short, ?_⟩
    cases recovery with
    | true => exact .inl rfl
    | false =>
      right
      by_contra many
      match entries with
      | [] | [_] => simp at many
      | first :: second :: rest =>
        -- The read ends at the first record, whose checksum is spoiled; those behind it are intact.
        have whole := (exact (first.spoiled :: (second :: rest).map Serialized.written)
          (by simp [Serialized.written, Serialized.spoiled])
          (by simp [Serialized.rejected_spoiled])
          (fileOf version (first.spoiled :: (second :: rest).map Serialized.written)).length).1
        rw [take_length, readFile_whole, length_fileOf, Written.intactBefore,
          Written.before_all _ (Nat.le_refl _), flatMap_cons, readRecords_spoiled (short first (by simp)),
          map_cons, filter_cons] at whole
        split at whole <;> simp at whole
  · rintro ⟨short, goesOn⟩ records rfl altered cut
    have shortAll : ∀ record ∈ records, record.original.text.length ≤ maxRecordSizeBytes := fun record member =>
      short _ (mem_map_of_mem member)
    rw [length_map] at goesOn
    exact ⟨readFile_before version shortAll altered (by simp) (fun _ => goesOn) cut,
      fun decodable => readFile_before version shortAll altered (fun _ => decodable) (by simp) cut⟩

def plainCodec : Codec Unit where
  field _ _ := some ()
  computeChecksum _ := List.replicate 8 48
  integer _ := none
  number _ := none
  eight _ := rfl
  hex _ digit member := by
    obtain rfl := List.eq_of_mem_replicate member
    rfl
  number_of_integer _ _ := nofun

def longEntry : Serialized plainCodec :=
  ⟨⟨(), (), ()⟩, List.replicate (maxRecordSizeBytes + 1) 32, by rw [List.length_replicate]; decide, rfl⟩

theorem overlong_entry_unread :
    longEntry.written.intact = true ∧ plainCodec.readFile false true (fileOf 65536 [longEntry.written]) = [] := by
  have long : maxRecordSizeBytes < longEntry.written.original.text.length := by
    simp [longEntry, Serialized.written]
  have fewer := Written.readRecords_overlong plainCodec true ⟨_, mem_singleton_self _, long⟩
    (fileOf 65536 [longEntry.written]).length
  rw [← readFile_whole, length_singleton, Nat.lt_one_iff, length_eq_zero_iff] at fewer
  exact ⟨longEntry.intact_written, fewer⟩

namespace Codec

variable (codec : Codec ν) {recovery : Bool} {fuel : Nat} {bytes : Bytes} {entry : RawEntry ν}

/-- What a best-effort read finds from the first length that is too large on. -/
def behind (recovery : Bool) : (fuel : Nat) → Bytes → List (RawEntry ν)
  | 0, _ => []
  | fuel + 1, bytes =>
      match head bytes with
      | .stop => []
      | .overlong _ => codec.readRecords true recovery (fuel + 1) bytes
      | .record _ _ rest => behind recovery fuel rest

theorem field_of_parse {text : Bytes} (parsed : codec.parseWalRecord text = some entry) :
    codec.field text "seq" = some entry.seq := by
  simp only [parseWalRecord, Option.pure_def, Option.bind_eq_bind, Option.bind_eq_some_iff, Option.some.injEq] at parsed
  obtain ⟨seq, found, _, _, _, _, rfl⟩ := parsed
  exact found

theorem mem_readRecords (read : entry ∈ codec.readRecords true recovery fuel bytes) :
    entry ∈ codec.behind recovery fuel bytes ∨
      ∀ n, codec.integer entry.seq = some n → n ∈ codec.sequences fuel bytes := by
  induction fuel generalizing bytes with
  | zero => simp [readRecords] at read
  | succ fuel ih =>
    rw [behind, sequences]
    cases shape : head bytes with
    | stop => simp [readRecords, shape] at read
    | overlong => exact .inl read
    | record checksum text rest =>
      have onward (later : entry ∈ codec.readRecords true recovery fuel rest) :
          entry ∈ codec.behind recovery fuel rest ∨ ∀ n, codec.integer entry.seq = some n →
            n ∈ ((codec.field text "seq").bind codec.integer).toList ++ codec.sequences fuel rest :=
        (ih later).imp_right fun listed n integer => mem_append_right _ (listed n integer)
      simp only [readRecords, shape, Bool.not_true, Bool.false_and, Bool.false_eq_true, if_false] at read
      split at read
      · rename_i parsed found
        obtain rfl | later := mem_cons.mp read
        · refine .inr fun n integer => mem_append_left _ ?_
          have field := codec.field_of_parse (Option.ite_none_right_eq_some.mp found).2
          simp [field, integer]
        · exact onward later
      · split at read
        · simp at read
        · exact onward read

theorem mem_readFile {file : Bytes} (read : entry ∈ codec.readFile true recovery file) :
    entry ∈ overBody (codec.behind recovery) file ∨
      ∀ n, codec.integer entry.seq = some n → n ∈ overBody codec.sequences file := by
  unfold readFile overBody at *
  split
  · simp_all
  · exact codec.mem_readRecords (by simpa [*] using read)

end Codec

/-- For every cursor cleanup spares a file that still gives an entry above it, exactly when no entry
that only the reader finds is above the positive integer sequences in front of the first overlong length. -/
theorem cleanup_spares_readable_iff (codec : Codec ν) (recovery : Bool) (file : Bytes) :
    (∀ (current livePeer : Bool) (lastProcessedSeq : Int), (∃ entry ∈ codec.readFile true recovery file,
          ∃ n ∈ codec.number entry.seq, (lastProcessedSeq : ℚ) < n) →
        codec.cleanupUnlinks file current livePeer lastProcessedSeq = false) ↔
      (∀ seq ∈ overBody codec.sequences file, seq ≤ 0) ∨
        ∀ entry ∈ codec.readFile true recovery file,
          codec.integer entry.seq = none ∨ entry ∈ overBody (codec.behind recovery) file →
          ∀ n ∈ codec.number entry.seq, ∃ seq ∈ overBody codec.sequences file, n ≤ seq := by
  obtain ⟨covered, reached⟩ : (∀ seq ∈ overBody codec.sequences file, seq ≤ codec.getFileMaxSequence file) ∧
      (codec.getFileMaxSequence file = 0 ∨ codec.getFileMaxSequence file ∈ overBody codec.sequences file) :=
    (foldl_max_spec _ 0).2
  constructor
  · intro spares
    by_cases quiet : ∀ seq ∈ overBody codec.sequences file, seq ≤ 0
    · exact .inl quiet
    · right
      intro entry read _ n number
      by_contra beyond
      push Not at quiet beyond
      obtain ⟨seq, listed, positive⟩ := quiet
      have top := covered seq listed
      have atTop := reached.resolve_left (by omega)
      have spared := spares false false (codec.getFileMaxSequence file) ⟨entry, read, n, number, beyond _ atTop⟩
      simp only [Codec.cleanupUnlinks, Bool.not_false, Bool.true_and, le_refl, decide_true, Bool.and_true,
        decide_eq_false_iff_not] at spared
      omega
  · rintro shape current livePeer cursor ⟨entry, read, n, number, ahead⟩
    by_contra unlinks
    simp only [Codec.cleanupUnlinks, Bool.not_eq_false, Bool.and_eq_true, decide_eq_true_eq] at unlinks
    obtain ⟨⟨_, positive⟩, passed⟩ := unlinks
    have below : ∃ seq ∈ overBody codec.sequences file, n ≤ seq := by
      rcases shape with quiet | shape
      · have listed := reached.resolve_left (by omega)
        have := quiet _ listed
        omega
      · cases integer : codec.integer entry.seq with
        | none => exact shape entry read (Or.inl integer) n number
        | some seq =>
          rcases codec.mem_readFile read with late | listed
          · exact shape entry read (Or.inr late) n number
          · obtain rfl := Option.some.inj ((codec.number_of_integer _ _ integer).symm.trans number)
            exact ⟨seq, listed seq integer, le_refl _⟩
    obtain ⟨seq, listed, bound⟩ := below
    have last : (seq : ℚ) ≤ cursor := by exact_mod_cast (covered seq listed).trans passed
    exact absurd (bound.trans last) (not_le.mpr ahead)

def entryText (digit : UInt8) : Bytes :=
  [123, 34, 115, 101, 113, 34, 58, digit, 44, 34, 116, 115, 34, 58, 48, 44, 34, 100, 97, 116, 97, 34, 58, 48, 125]

def sampleCodec : Codec Int where
  field text key :=
    if text = entryText 49 then some (if key = "seq" then 1 else 0)
    else if text = entryText 50 then some (if key = "seq" then 2 else 0)
    else none
  computeChecksum text :=
    if text = entryText 49 then [49, 99, 102, 102, 49, 55, 100, 52] else [102, 54, 55, 57, 99, 97, 98, 54]
  integer := some
  number value := some value
  eight text := by split <;> rfl
  hex text := by split <;> exact List.all_eq_true.mp rfl
  number_of_integer _ _ same := by
    obtain rfl := Option.some.inj same
    rfl

def brokenFile : Bytes :=
  magic ++ pack 65536 ++ pack 25 ++ sampleCodec.computeChecksum (entryText 49) ++ entryText 49 ++
    List.replicate 13 255 ++ pack 25 ++ sampleCodec.computeChecksum (entryText 50) ++ entryText 50

theorem cleanup_unlinks_unread_entry :
    sampleCodec.readFile true true brokenFile = [⟨1, 0, 0⟩, ⟨2, 0, 0⟩] ∧
      sampleCodec.cleanupUnlinks brokenFile false false 1 = true := by
  decide +kernel

end Baldur.Wal.RecordBytes
