import Mathlib
import Source2Root.Json

/-!
# The memory budget of a plugin

`CheckMemoryBudget`: the bounds of a compiled plugin, checked before it is loaded.
Sums and differences are those of the widths in the code.  A copy that leaves its
buffer is a failure here that the code does not have.
-/

set_option autoImplicit false

namespace Source2Root.MemoryBudget

abbrev Bytes := List UInt8

inductive Failure where
  | structureBounds
  | image
  | compressedBounds
  | compressedImage
  | truncated
  | compression
  | sectionBounds
  | sectionName
  | dataSection
  | budget
  | noData
  | outOfBounds
deriving DecidableEq, Repr

/-- The text of a failure; the last one is no error of the code. -/
def Failure.message : Failure → String
  | .structureBounds => "SMX structure exceeds file bounds"
  | .image => "invalid or oversized SMX image"
  | .compressedBounds => "invalid compressed SMX bounds"
  | .compressedImage => "invalid compressed SMX image"
  | .truncated => "truncated SMX image"
  | .compression => "unsupported SMX compression"
  | .sectionBounds => "SMX section exceeds image bounds"
  | .sectionName => "SMX section name is not terminated"
  | .dataSection => "invalid SMX data section"
  | .budget => "SMX memory exceeds 16 MiB budget"
  | .noData => "SMX has no data section"
  | .outOfBounds => "access outside of a buffer"

structure Header where
  magic : UInt32
  compression : UInt8
  disksize : UInt32
  imagesize : UInt32
  sections : UInt8
  stringtab : UInt32
  dataoffs : UInt32
deriving DecidableEq, Repr

structure Section where
  nameoffs : UInt32
  dataoffs : UInt32
  size : UInt32
deriving DecidableEq, Repr

structure Data where
  datasize : UInt32
  memsize : UInt32
deriving DecidableEq, Repr

/-- The format of the files: how large its structures are and what their bytes
mean.  A table of 255 sections fits the address space. -/
structure Smx where
  headerSize : Nat
  sectionSize : Nat
  dataSize : Nat
  header : Bytes → Header
  entry : Bytes → Section
  data : Bytes → Data
  magic : UInt32
  gz : UInt8
  none : UInt8
  fits : headerSize + 256 * sectionSize < 2 ^ 64

/-- What `uncompress` does: its status, the length it reports and the bytes it wrote. -/
structure Uncompressed where
  ok : Bool
  size : Nat
  written : Bytes

def copy (bytes : Bytes) (offset count : Nat) : Except Failure Bytes :=
  if offset + count ≤ bytes.length then .ok ((bytes.drop offset).take count)
  else .error .outOfBounds

def write (bytes : Bytes) (offset : Nat) (part : Bytes) : Except Failure Bytes :=
  if offset + part.length ≤ bytes.length then
    .ok (bytes.take offset ++ part ++ bytes.drop (offset + part.length))
  else .error .outOfBounds

/-- `Read`. -/
def read {α : Type} (decode : Bytes → α) (size : Nat) (bytes : Bytes) (offset : Nat) :
    Except Failure α :=
  if offset > bytes.length ∨ size > bytes.length - offset then .error .structureBounds
  else do
    let raw ← copy bytes offset size
    return decode raw

variable (smx : Smx) (uncompress : Nat → Bytes → Uncompressed)

/-- The front of the file, and behind it what the rest of it expands to. -/
def inflate (file : Bytes) (header : Header) : Except Failure Bytes := do
  let front ← copy file 0 header.dataoffs.toNat
  let image ← write (List.replicate header.imagesize.toNat 0) 0 front
  let size := (header.imagesize - header.dataoffs).toNat
  let source ← copy file header.dataoffs.toNat (header.disksize - header.dataoffs).toNat
  let result := uncompress size source
  let image ← write image header.dataoffs.toNat result.written
  if result.ok = false ∨ result.size ≠ size then .error .compressedImage else .ok image

def expand (file : Bytes) (header : Header) : Except Failure Bytes :=
  if header.compression = smx.gz then
    if header.dataoffs.toNat < smx.headerSize ∨ header.dataoffs > header.imagesize ∨
        header.disksize.toNat > file.length ∨ header.dataoffs ≥ header.disksize then
      .error .compressedBounds
    else inflate uncompress file header
  else if header.compression = smx.none then
    if header.imagesize.toNat > file.length then .error .truncated else .ok file
  else .error .compression

/-- `std::memchr` for a zero, up to the end. -/
def terminated (image : Bytes) (offset : Nat) : Except Failure (Option Bytes) := do
  let rest ← copy image offset (image.length - offset)
  return (rest.findIdx? (· == 0)).map fun last => rest.take last

/-- The bytes of `.data`. -/
def dataName : Bytes := [46, 100, 97, 116, 97]

def budget : Nat := 16 * 1024 * 1024

def checkData (image : Bytes) (entry : Section) : Except Failure Unit := do
  let data ← read smx.data smx.dataSize image entry.dataoffs.toNat
  if data.memsize.toNat > budget ∨ data.datasize > data.memsize then .error .budget else .ok ()

/-- One turn of the loop: whether the section is the one of the data. -/
def checkSection (header : Header) (image : Bytes) (found : Bool) (i : Nat) :
    Except Failure Bool := do
  let entry ← read smx.entry smx.sectionSize image
    ((smx.headerSize + i * smx.sectionSize) % 2 ^ 64)
  let nameOffset := header.stringtab.toUInt64 + entry.nameoffs.toUInt64
  if nameOffset.toNat ≥ image.length ∨
      (entry.dataoffs.toUInt64 + entry.size.toUInt64).toNat > image.length then
    .error .sectionBounds
  else do
    let name ← terminated image nameOffset.toNat
    match name with
    | none => .error .sectionName
    | some name =>
        if name ≠ dataName then .ok false
        else if found = true ∨ entry.size.toNat < smx.dataSize then .error .dataSection
        else do
          checkData smx image entry
          return true

/-- The loop from section `i` on. -/
def checkSections (header : Header) (image : Bytes) (found : Bool) (i : Nat) :
    Nat → Except Failure Bool
  | 0 => .ok found
  | more + 1 => do
      let data ← checkSection smx header image found i
      checkSections header image (found || data) (i + 1) more

def checkMemoryBudget (file : Bytes) : Except Failure Unit := do
  let header ← read smx.header smx.headerSize file 0
  if header.magic ≠ smx.magic ∨ header.imagesize.toNat > 4 * 1024 * 1024 ∨
      header.imagesize.toNat < smx.headerSize then .error .image
  else do
    let image ← expand smx uncompress file header
    let found ← checkSections smx header image false 0 header.sections.toNat
    if found then return () else .error .noData

/-! ## What an accepted file is -/

def slice (bytes : Bytes) (offset count : Nat) : Option Bytes :=
  if offset + count ≤ bytes.length then some ((bytes.drop offset).take count) else none

/-- The section of a number, where its bytes lie inside the image. -/
def sectionAt (image : Bytes) (i : Nat) : Option Section :=
  (slice image (smx.headerSize + i * smx.sectionSize) smx.sectionSize).map smx.entry

/-- A name with its terminator stands inside the image. -/
def NameAt (image : Bytes) (offset : Nat) (name : Bytes) : Prop :=
  0 ∉ name ∧ ∃ rest, image.drop offset = name ++ 0 :: rest

/-- The section lies inside the image, and so does its name. -/
structure Listed (header : Header) (image : Bytes) (entry : Section) (name : Bytes) : Prop where
  inside : entry.dataoffs.toNat + entry.size.toNat ≤ image.length
  named : NameAt image (header.stringtab.toNat + entry.nameoffs.toNat) name

/-- The section of a number is the one of the data. -/
def IsData (header : Header) (image : Bytes) (i : Nat) : Prop :=
  ∃ entry, sectionAt smx image i = some entry ∧ Listed header image entry dataName

/-- What the section of the data declares is within the budget. -/
def InBudget (image : Bytes) (i : Nat) : Prop :=
  ∃ entry raw, sectionAt smx image i = some entry ∧ smx.dataSize ≤ entry.size.toNat ∧
    slice image entry.dataoffs.toNat smx.dataSize = some raw ∧
    (smx.data raw).memsize.toNat ≤ budget ∧
    (smx.data raw).datasize.toNat ≤ (smx.data raw).memsize.toNat

structure Accepted (header : Header) (image : Bytes) : Prop where
  sections : ∀ i < header.sections.toNat, ∃ entry name,
    sectionAt smx image i = some entry ∧ Listed header image entry name
  data : ∃ i < header.sections.toNat, IsData smx header image i ∧ InBudget smx image i ∧
    ∀ j < header.sections.toNat, IsData smx header image j → j = i

/-- The image of a file: the file itself, or its front and what the rest of it expands
to, which fills the space announced. -/
inductive ImageOf (file : Bytes) (header : Header) : Bytes → Prop
  | plain : header.compression = smx.none → header.imagesize.toNat ≤ file.length →
      ImageOf file header file
  | expanded (source written : Bytes) :
      header.compression = smx.gz → smx.headerSize ≤ header.dataoffs.toNat →
      header.disksize.toNat ≤ file.length →
      source = (file.drop header.dataoffs.toNat).take
        (header.disksize.toNat - header.dataoffs.toNat) →
      uncompress (header.imagesize.toNat - header.dataoffs.toNat) source =
        ⟨true, written.length, written⟩ →
      header.dataoffs.toNat + written.length = header.imagesize.toNat →
      ImageOf file header (file.take header.dataoffs.toNat ++ written)

/-! ## No access outside of a buffer -/

/-- What zlib promises: at most the space announced is written, and the length
reported is what was written. -/
def Bounded : Prop :=
  ∀ space source, (uncompress space source).written.length ≤ space ∧
    ((uncompress space source).ok = true →
      (uncompress space source).size = (uncompress space source).written.length)

theorem copy_eq {bytes : Bytes} {offset count : Nat} (inside : offset + count ≤ bytes.length) :
    copy bytes offset count = .ok ((bytes.drop offset).take count) := if_pos inside

theorem write_eq {bytes part : Bytes} {offset : Nat}
    (inside : offset + part.length ≤ bytes.length) :
    write bytes offset part =
      .ok (bytes.take offset ++ part ++ bytes.drop (offset + part.length)) := if_pos inside

theorem write_behind (front : Bytes) {rest part : Bytes} (room : part.length ≤ rest.length) :
    write (front ++ rest) front.length part =
      .ok (front ++ (part ++ rest.drop part.length)) := by
  rw [write_eq (by rw [List.length_append]; omega), List.take_left, List.drop_append,
    List.drop_eq_nil_of_le (by omega), List.nil_append, Nat.add_sub_cancel_left, List.append_assoc]

/-- Every structure read lies inside the bytes. -/
theorem read_eq {α : Type} (decode : Bytes → α) (size : Nat) (bytes : Bytes) (offset : Nat) :
    read decode size bytes offset =
      match slice bytes offset size with
      | none => .error .structureBounds
      | some raw => .ok (decode raw) := by
  unfold read slice
  by_cases inside : offset + size ≤ bytes.length
  · rw [if_neg (by omega), if_pos inside, copy_eq inside]
    rfl
  · rw [if_pos (by omega), if_neg inside]

theorem terminated_eq {image : Bytes} {offset : Nat} (inside : offset ≤ image.length) :
    terminated image offset =
      .ok (((image.drop offset).findIdx? (· == 0)).map fun last =>
        (image.drop offset).take last) := by
  unfold terminated
  rw [copy_eq (by omega), List.take_of_length_le (by rw [List.length_drop])]
  rfl

/-- The sum of two 32-bit numbers does not wrap in 64 bits. -/
theorem sum_toNat (a b : UInt32) : (a.toUInt64 + b.toUInt64).toNat = a.toNat + b.toNat := by
  have first := a.toNat_lt
  have second := b.toNat_lt
  rw [UInt64.toNat_add, UInt32.toNat_toUInt64, UInt32.toNat_toUInt64]
  omega

/-- A difference of 32-bit numbers that is not negative. -/
theorem difference_toNat {a b : UInt32} (le : b.toNat ≤ a.toNat) :
    (a - b).toNat = a.toNat - b.toNat :=
  UInt32.toNat_sub_of_le a b (UInt32.le_iff_toNat_le.mpr le)

def Safe {α : Type} (does : Except Failure α) : Prop := does ≠ .error .outOfBounds

theorem Safe.bind {α β : Type} {does : Except Failure α} {next : α → Except Failure β}
    (first : Safe does) (later : ∀ value, does = .ok value → Safe (next value)) :
    Safe (does >>= next) := by
  cases does with
  | ok value => exact later value rfl
  | error failure =>
      rintro is
      cases is
      exact first rfl

theorem safe_ok {α : Type} (value : α) : Safe (.ok value) := by simp [Safe]

theorem safe_error {α : Type} {failure : Failure} (other : failure ≠ .outOfBounds) :
    Safe (.error failure : Except Failure α) := by simpa [Safe]

theorem read_safe {α : Type} (decode : Bytes → α) (size : Nat) (bytes : Bytes) (offset : Nat) :
    Safe (read decode size bytes offset) := by
  rw [read_eq]
  split
  · exact safe_error (by decide)
  · exact safe_ok _

variable {smx uncompress}

theorem ok_bind {α β : Type} (value : α) (next : α → Except Failure β) :
    (Except.ok value >>= next) = next value := rfl

/-- Where the offsets are in order, no access leaves the file or the image. -/
theorem inflate_eq (bounded : Bounded uncompress) {file : Bytes} {header : Header}
    (within : header.dataoffs.toNat ≤ header.imagesize.toNat)
    (short : header.disksize.toNat ≤ file.length)
    (filled : header.dataoffs.toNat < header.disksize.toNat) :
    let size := header.imagesize.toNat - header.dataoffs.toNat
    let result := uncompress size ((file.drop header.dataoffs.toNat).take
      (header.disksize.toNat - header.dataoffs.toNat))
    inflate uncompress file header =
      if result.ok = false ∨ result.size ≠ size then .error .compressedImage
      else .ok (file.take header.dataoffs.toNat ++ (result.written ++
        List.replicate (size - result.written.length) 0)) := by
  intro size result
  have space := difference_toNat within
  have count := difference_toNat (Nat.le_of_lt filled)
  have most : result.written.length ≤ size := (bounded _ _).1
  have first : copy file 0 header.dataoffs.toNat = .ok (file.take header.dataoffs.toNat) :=
    copy_eq (by omega)
  have front : (file.take header.dataoffs.toNat).length = header.dataoffs.toNat := by
    rw [List.length_take]
    omega
  have placed : write (List.replicate header.imagesize.toNat 0) 0
      (file.take header.dataoffs.toNat) =
      .ok (file.take header.dataoffs.toNat ++ List.replicate size 0) := by
    rw [write_eq (by rw [front, List.length_replicate]; omega)]
    simp [front, size]
  have second : copy file header.dataoffs.toNat (header.disksize.toNat - header.dataoffs.toNat) =
      .ok ((file.drop header.dataoffs.toNat).take
        (header.disksize.toNat - header.dataoffs.toNat)) := copy_eq (by omega)
  have expanded : write (file.take header.dataoffs.toNat ++ List.replicate size 0)
      header.dataoffs.toNat result.written =
      .ok (file.take header.dataoffs.toNat ++ (result.written ++
        List.replicate (size - result.written.length) 0)) := by
    have room : result.written.length ≤ (List.replicate size (0 : UInt8)).length := by
      rw [List.length_replicate]
      exact most
    have behind := write_behind (file.take header.dataoffs.toNat) room
    rw [front, List.drop_replicate] at behind
    exact behind
  unfold inflate
  simp only [first, ok_bind, placed, space, count, second]
  show (write _ _ result.written >>= fun image =>
    if result.ok = false ∨ result.size ≠ size then _ else _) = _
  rw [expanded]
  rfl

/-- No access of the expansion leaves its buffer, and the image is the front of the
file and what zlib wrote. -/
theorem expand_does (smx : Smx) (bounded : Bounded uncompress) (file : Bytes) (header : Header) :
    Safe (expand smx uncompress file header) ∧
      ∀ image, expand smx uncompress file header = .ok image →
        ImageOf smx uncompress file header image := by
  unfold expand
  split
  · rename_i gz
    split
    · exact ⟨safe_error (by decide), by rintro _ ⟨⟩⟩
    · rename_i range
      simp only [not_or, gt_iff_lt, ge_iff_le, not_lt, UInt32.le_iff_toNat_le,
        UInt32.lt_iff_toNat_lt, not_le] at range
      obtain ⟨behind, within, short, filled⟩ := range
      rw [inflate_eq bounded within short filled]
      obtain ⟨most, reports⟩ := bounded (header.imagesize.toNat - header.dataoffs.toNat)
        ((file.drop header.dataoffs.toNat).take (header.disksize.toNat - header.dataoffs.toNat))
      generalize found : uncompress (header.imagesize.toNat - header.dataoffs.toNat)
        ((file.drop header.dataoffs.toNat).take
          (header.disksize.toNat - header.dataoffs.toNat)) = result at most reports
      split
      · exact ⟨safe_error (by decide), by rintro _ ⟨⟩⟩
      · rename_i fine
        simp only [not_or, Bool.not_eq_false, not_not] at fine
        have size := reports fine.1
        refine ⟨safe_ok _, ?_⟩
        rintro _ ⟨⟩
        rw [show header.imagesize.toNat - header.dataoffs.toNat - result.written.length = 0 by omega,
          List.replicate_zero, List.append_nil]
        refine .expanded _ result.written gz behind short rfl ?_ (by omega)
        rw [found, ← size, ← fine.1]
  · split
    · split
      · exact ⟨safe_error (by decide), by rintro _ ⟨⟩⟩
      · rename_i other plain fits
        refine ⟨safe_ok _, ?_⟩
        rintro _ ⟨⟩
        exact .plain plain (by omega)
    · exact ⟨safe_error (by decide), by rintro _ ⟨⟩⟩

/-! ## The sections -/

theorem nameAt_of_find {image name : Bytes} {offset : Nat}
    (found : ((image.drop offset).findIdx? (· == 0)).map
      (fun last => (image.drop offset).take last) = some name) : NameAt image offset name := by
  obtain ⟨last, first, rfl⟩ := Option.map_eq_some_iff.mp found
  obtain ⟨inside, zero, before⟩ := List.findIdx?_eq_some_iff_getElem.mp first
  constructor
  · intro within
    obtain ⟨j, small, is⟩ := List.getElem_of_mem within
    rw [List.length_take] at small
    have plain := before j (by omega)
    rw [List.getElem_take] at is
    rw [is] at plain
    exact absurd rfl plain
  · refine ⟨(image.drop offset).drop (last + 1), ?_⟩
    have split := (List.take_append_drop last (image.drop offset)).symm
    rw [List.drop_eq_getElem_cons inside, beq_iff_eq.mp zero] at split
    exact split

/-- A name at a place is the only one there. -/
theorem NameAt.unique {image name other : Bytes} {offset : Nat} (one : NameAt image offset name)
    (two : NameAt image offset other) : name = other := by
  obtain ⟨plain, rest, is⟩ := one
  obtain ⟨plain', rest', is'⟩ := two
  have same : name ++ 0 :: rest = other ++ 0 :: rest' := is.symm.trans is'
  rcases List.append_eq_append_iff.mp same with ⟨more, shape, behind⟩ | ⟨more, shape, behind⟩
  · cases more with
    | nil => rw [shape, List.append_nil]
    | cons b more =>
        obtain rfl : 0 = b := (List.cons.inj behind).1
        exact absurd (by rw [shape]; simp) plain'
  · cases more with
    | nil => rw [shape, List.append_nil]
    | cons b more =>
        obtain rfl : 0 = b := (List.cons.inj behind).1
        exact absurd (by rw [shape]; simp) plain

theorem checkData_does (image : Bytes) (entry : Section) :
    Safe (checkData smx image entry) ∧ (checkData smx image entry = .ok () →
      ∃ raw, slice image entry.dataoffs.toNat smx.dataSize = some raw ∧
        (smx.data raw).memsize.toNat ≤ budget ∧
        (smx.data raw).datasize.toNat ≤ (smx.data raw).memsize.toNat) := by
  constructor
  · refine (read_safe _ _ _ _).bind ?_
    intro data _
    split
    · exact safe_error (by decide)
    · exact safe_ok _
  · intro does
    obtain ⟨data, is, does⟩ := bind_eq_ok.mp does
    rw [read_eq] at is
    cases found : slice image entry.dataoffs.toNat smx.dataSize with
    | none =>
        rw [found] at is
        cases is
    | some raw =>
        rw [found] at is
        cases is
        split at does
        · cases does
        · rename_i fits
          simp only [not_or, gt_iff_lt, not_lt, UInt32.lt_iff_toNat_lt] at fits
          exact ⟨raw, rfl, fits⟩

/-- What one turn checks: the section lies inside the image with its name, and where
it is the one of the data, none was before and it is within the budget. -/
theorem checkSection_does (smx : Smx) (header : Header) (image : Bytes) (found : Bool) {i : Nat}
    (small : i < 256) :
    Safe (checkSection smx header image found i) ∧
      ∀ data, checkSection smx header image found i = .ok data →
        (∃ entry name, sectionAt smx image i = some entry ∧ Listed header image entry name) ∧
        (data = true ↔ IsData smx header image i) ∧
        (data = true → found = false ∧ InBudget smx image i) := by
  have offset : (smx.headerSize + i * smx.sectionSize) % 2 ^ 64 =
      smx.headerSize + i * smx.sectionSize := by
    have fits := smx.fits
    have grows : i * smx.sectionSize ≤ 256 * smx.sectionSize :=
      Nat.mul_le_mul_right _ (Nat.le_of_lt small)
    exact Nat.mod_eq_of_lt (by omega)
  unfold checkSection
  rw [offset, read_eq]
  cases sliced : slice image (smx.headerSize + i * smx.sectionSize) smx.sectionSize with
  | none => exact ⟨safe_error (by decide), by rintro _ ⟨⟩⟩
  | some raw =>
      have at' : sectionAt smx image i = some (smx.entry raw) := by rw [sectionAt, sliced]; rfl
      simp only [ok_bind, sum_toNat]
      generalize smx.entry raw = entry at at' ⊢
      split
      · exact ⟨safe_error (by decide), by rintro _ ⟨⟩⟩
      · rename_i range
        rw [not_or, not_le, not_lt] at range
        rw [terminated_eq (Nat.le_of_lt range.1), ok_bind]
        cases name : ((image.drop (header.stringtab.toNat + entry.nameoffs.toNat)).findIdx?
            (· == 0)).map fun last =>
              (image.drop (header.stringtab.toNat + entry.nameoffs.toNat)).take last with
        | none => exact ⟨safe_error (by decide), by rintro _ ⟨⟩⟩
        | some name' =>
            have listed : Listed header image entry name' := ⟨range.2, nameAt_of_find name⟩
            have same : IsData smx header image i → name' = dataName := by
              rintro ⟨other, is, data⟩
              rw [at'] at is
              cases is
              exact listed.named.unique data.named
            simp only
            split
            · rename_i other
              refine ⟨safe_ok _, ?_⟩
              rintro _ ⟨⟩
              refine ⟨⟨entry, name', at', listed⟩, ⟨nofun, ?_⟩, nofun⟩
              intro data
              exact absurd (same data) other
            · rename_i is
              rw [not_not] at is
              subst is
              split
              · exact ⟨safe_error (by decide), by rintro _ ⟨⟩⟩
              · rename_i first
                simp only [not_or, Bool.not_eq_true, not_lt] at first
                obtain ⟨safe, checks⟩ := checkData_does image entry
                refine ⟨safe.bind fun _ _ => safe_ok _, ?_⟩
                intro data does
                obtain ⟨_, checked, done⟩ := bind_eq_ok.mp does
                cases done
                obtain ⟨raw', sliced', fits⟩ := checks checked
                exact ⟨⟨entry, dataName, at', listed⟩, ⟨fun _ => ⟨entry, at', listed⟩, fun _ => rfl⟩,
                  fun _ => ⟨first.1, entry, raw', at', first.2, sliced', fits⟩⟩

/-- What the loop checks from a section on. -/
structure Checked (smx : Smx) (header : Header) (image : Bytes) (found out : Bool) (i more : Nat) : Prop where
  listed : ∀ j, i ≤ j → j < i + more → ∃ entry name,
    sectionAt smx image j = some entry ∧ Listed header image entry name
  before : found = true → out = true ∧ ∀ j, i ≤ j → j < i + more → ¬ IsData smx header image j
  first : found = false → out = true → ∃ j, (i ≤ j ∧ j < i + more) ∧ IsData smx header image j ∧
    InBudget smx image j ∧ ∀ k, i ≤ k → k < i + more → IsData smx header image k → k = j

theorem checkSections_does (smx : Smx) (header : Header) (image : Bytes) (more : Nat) :
    ∀ (found : Bool) (i : Nat), i + more ≤ 256 →
      Safe (checkSections smx header image found i more) ∧
        ∀ out, checkSections smx header image found i more = .ok out →
          Checked smx header image found out i more := by
  induction more with
  | zero =>
      intro found i _
      refine ⟨safe_ok _, ?_⟩
      rintro _ ⟨⟩
      exact ⟨fun j low high => by omega, fun is => ⟨is, fun j low high => by omega⟩,
        fun is is' => by rw [is] at is'; cases is'⟩
  | succ more ih =>
      intro found i small
      obtain ⟨safe, does⟩ := checkSection_does smx header image found
        (show i < 256 by omega)
      refine ⟨safe.bind fun data _ => (ih _ _ (by omega)).1, ?_⟩
      intro out ran
      obtain ⟨data, one, rest⟩ := bind_eq_ok.mp ran
      obtain ⟨here, isData, budgeted⟩ := does data one
      have later := (ih (found || data) (i + 1) (by omega)).2 out rest
      refine ⟨?_, ?_, ?_⟩
      · intro j low high
        by_cases is : j = i
        · rw [is]
          exact here
        · exact later.listed j (by omega) (by omega)
      · rintro rfl
        obtain ⟨is, none⟩ := later.before (Bool.true_or _)
        refine ⟨is, ?_⟩
        intro j low high theData
        by_cases same : j = i
        · rw [same] at theData
          exact absurd (budgeted (isData.mpr theData)).1 (by decide)
        · exact none j (by omega) (by omega) theData
      · rintro rfl is
        cases data with
        | true =>
            obtain ⟨-, none⟩ := later.before rfl
            refine ⟨i, ⟨le_refl _, by omega⟩, isData.mp rfl, (budgeted rfl).2, ?_⟩
            intro k low high theData
            by_contra other
            exact none k (by omega) (by omega) theData
        | false =>
            obtain ⟨j, range, theData, budget, only⟩ := later.first rfl is
            refine ⟨j, ⟨by omega, by omega⟩, theData, budget, ?_⟩
            intro k low high other
            by_cases same : k = i
            · rw [same] at other
              cases isData.mpr other
            · exact only k (by omega) (by omega) other

/-- The check leaves no buffer, and what it accepts has every section and its name
inside the image and one section of data, within the budget. -/
theorem checkMemoryBudget_bounds (smx : Smx) (uncompress : Nat → Bytes → Uncompressed)
    (bounded : Bounded uncompress) (file : Bytes) :
    checkMemoryBudget smx uncompress file ≠ .error .outOfBounds ∧
    (checkMemoryBudget smx uncompress file = .ok () →
      ∃ raw image, slice file 0 smx.headerSize = some raw ∧ (smx.header raw).magic = smx.magic ∧
        (smx.header raw).imagesize.toNat ≤ 4 * 1024 * 1024 ∧
        ImageOf smx uncompress file (smx.header raw) image ∧
        Accepted smx (smx.header raw) image) := by
  unfold checkMemoryBudget
  rw [read_eq]
  cases sliced : slice file 0 smx.headerSize with
  | none => exact ⟨by simp [bind, Except.bind], by rintro ⟨⟩⟩
  | some raw =>
      rw [ok_bind]
      generalize headed : smx.header raw = header
      have count : 0 + header.sections.toNat ≤ 256 := by
        have small := header.sections.toNat_lt
        omega
      split
      · exact ⟨by simp, by rintro ⟨⟩⟩
      · rename_i fine
        simp only [not_or, not_not, gt_iff_lt, not_lt] at fine
        obtain ⟨safe, expands⟩ := expand_does smx bounded file header
        have sections := fun image =>
          checkSections_does smx header image header.sections.toNat false 0 count
        constructor
        · refine safe.bind fun image _ => (sections image).1.bind fun found _ => ?_
          split
          · exact safe_ok _
          · exact safe_error (by decide)
        · intro does
          obtain ⟨image, expanded, does⟩ := bind_eq_ok.mp does
          obtain ⟨found, checked, does⟩ := bind_eq_ok.mp does
          cases found with
          | false => cases does
          | true =>
              have all := (sections image).2 true checked
              obtain ⟨j, range, data, budget, only⟩ := all.first rfl rfl
              refine ⟨raw, image, rfl, ?_⟩
              rw [headed]
              exact ⟨fine.1, fine.2.1, expands image expanded,
                ⟨fun j high => all.listed j (Nat.zero_le _) (by omega),
                  ⟨j, by omega, data, budget, fun k high => only k (Nat.zero_le _) (by omega)⟩⟩⟩

/-- A 32-bit number, the lowest byte first. -/
def word (bytes : Bytes) (i : Nat) : UInt32 :=
  UInt32.ofNat ((bytes.getD i 0).toNat + 2 ^ 8 * (bytes.getD (i + 1) 0).toNat +
    2 ^ 16 * (bytes.getD (i + 2) 0).toNat + 2 ^ 24 * (bytes.getD (i + 3) 0).toNat)

/-- The first version of the format. -/
def smxV1 : Smx where
  headerSize := 24
  sectionSize := 12
  dataSize := 12
  header := fun bytes => ⟨word bytes 0, bytes.getD 6 0, word bytes 7, word bytes 11,
    bytes.getD 15 0, word bytes 16, word bytes 20⟩
  entry := fun bytes => ⟨word bytes 0, word bytes 4, word bytes 8⟩
  data := fun bytes => ⟨word bytes 0, word bytes 4⟩
  magic := 0x53504646
  gz := 1
  none := 0
  fits := by norm_num

/-- The check value of a zlib stream. -/
def adler (bytes : Bytes) : Nat :=
  let sums := bytes.foldl (fun sums byte =>
    let low := (sums.1 + byte.toNat) % 65521
    (low, (sums.2 + low) % 65521)) (1, 0)
  sums.2 * 2 ^ 16 + sums.1

/-- `uncompress` on the streams of one block that is stored as it is. -/
def stored (space : Nat) (source : Bytes) : Uncompressed :=
  let size := (source.getD 3 0).toNat + 2 ^ 8 * (source.getD 4 0).toNat
  let data := (source.drop 7).take size
  let check := (source.drop (7 + size)).foldl (fun n byte => 2 ^ 8 * n + byte.toNat) 0
  if source.take 3 = [0x78, 1, 1] ∧ source.getD 5 0 = ~~~source.getD 3 0 ∧
      source.getD 6 0 = ~~~source.getD 4 0 ∧ source.length = 7 + size + 4 ∧
      check = adler data ∧ size ≤ space then ⟨true, size, data⟩
  else ⟨false, 0, []⟩

theorem stored_bounded : Bounded stored := by
  intro space source
  unfold stored
  dsimp only
  split
  · rename_i fine
    obtain ⟨-, -, -, whole, -, small⟩ := fine
    have size : ((source.drop 7).take
        ((source.getD 3 0).toNat + 2 ^ 8 * (source.getD 4 0).toNat)).length =
        (source.getD 3 0).toNat + 2 ^ 8 * (source.getD 4 0).toNat := by
      rw [List.length_take, List.length_drop]
      omega
    exact ⟨size.trans_le small, fun _ => size.symm⟩
  · exact ⟨Nat.zero_le _, fun never => absurd never Bool.false_ne_true⟩

/-- A compressed file of one section, its name and what it declares. -/
def smallest : Bytes :=
  [0x46, 0x46, 0x50, 0x53, 1, 1, 1, 65, 0, 0, 0, 54, 0, 0, 0, 1, 36, 0, 0, 0, 24, 0, 0, 0] ++
    [0x78, 1, 1, 30, 0, 225, 255] ++
    [0, 0, 0, 0, 42, 0, 0, 0, 12, 0, 0, 0] ++ (dataName ++ [0]) ++
    [0, 0, 0, 0, 0, 64, 0, 0, 12, 0, 0, 0] ++ [35, 100, 2, 75]

theorem checkMemoryBudget_bounds_smallest :
    ∃ raw image, slice smallest 0 24 = some raw ∧ (smxV1.header raw).compression = smxV1.gz ∧
      ImageOf smxV1 stored smallest (smxV1.header raw) image ∧
      Accepted smxV1 (smxV1.header raw) image := by
  obtain ⟨raw, image, is, -, -, imageOf, accepted⟩ :=
    (checkMemoryBudget_bounds smxV1 stored stored_bounded smallest).2 (by decide +kernel)
  refine ⟨raw, image, is, ?_, imageOf, accepted⟩
  cases is
  rfl

end Source2Root.MemoryBudget
