import Hypernote.Foundation.Base64
import Hypernote.Foundation.Utf8
import Hypernote.Sdk.MimeBundles
import Hypernote.Sdk.NotebookStatus
/-!
# Image outputs as files

`save_image_outputs` of a cell and of a notebook.  A file is named after the id of its cell, the
index of the output and the type of the image; an id that cannot be part of a file name is rewritten.
-/

namespace Hypernote

open Foundation

namespace Sdk

/-! ## File names -/

/-- A character that `_safe_file_stem` keeps. -/
def isSafe (c : Char) : Bool :=
  'A' ≤ c && c ≤ 'Z' || 'a' ≤ c && c ≤ 'z' || '0' ≤ c && c ≤ '9' || c = '.' || c = '_' || c = '-'

/-- `re.sub(r"[^A-Za-z0-9._-]", "-", value)`. -/
def sanitized (value : Chars) : Chars := value.map fun c => if isSafe c then c else '-'

/-- `hashlib.sha1(value.encode("utf-8")).hexdigest()`: of the function only the form of the result
matters. -/
structure HexHash where
  hexdigest : Chars → Chars
  hex : ∀ value, (hexdigest value).all (· ∈ "0123456789abcdef".toList) = true

/-- `stem.strip("-") or "cell"`. -/
def stemBase (stem : Chars) : Chars :=
  let base := (stem.dropWhile (· = '-')).rdropWhile (· = '-')
  if base = [] then "cell".toList else base

/-- `_safe_file_stem`. -/
def safeFileStem (sha1 : HexHash) (value : Chars) : Chars :=
  let stem := sanitized value
  if stem = value then (if stem = [] then "cell".toList else stem)
  else
    let digest := (sha1.hexdigest value).take 8
    stemBase stem ++ '-' :: digest

/-- `str(target / name)`, `str(target)` given. -/
def joinPath (target name : Chars) : Chars :=
  if target = ['.'] then name
  else if target.getLast? = some '/' then target ++ name
  else target ++ '/' :: name

/-! ## Images -/

/-- `IMAGE_MIME_EXTENSIONS`. -/
def imageMimeExtensions : List (String × String) :=
  [("image/png", "png"), ("image/jpeg", "jpg"), ("image/svg+xml", "svg")]

/-- A payload that the loops of `save_image_outputs` do not pass over. -/
structure ImageOutput where
  index : Nat
  mimeType : String
  extension : String
  content : Chars
  deriving DecidableEq

/-- The payload of the given type in the data of an output: a string that is not blank. -/
def imageOf? (data : List (String × Json)) (index : Nat) (mimeType extension : String) :
    Option ImageOutput :=
  match (data.lookup mimeType).map joinedDataContent with
  | some (.str content) =>
      if PyText.strip content.toList = [] then none
      else some ⟨index, mimeType, extension, content.toList⟩
  | _ => none

/-- The body of the loop over the outputs. -/
def imagesIn (output : OutputDict) (index : Nat) : List ImageOutput :=
  match output.get? "data" with
  | some (.obj data) => imageMimeExtensions.filterMap fun kind => imageOf? data index kind.1 kind.2
  | _ => []

/-- The payloads in the order of the loops. -/
def imagesOf (outputs : List OutputDict) : List ImageOutput :=
  outputs.zipIdx.flatMap fun entry => imagesIn entry.1 entry.2

/-- An SVG is written as it is, any other image decoded. -/
def ImageOutput.isText (image : ImageOutput) : Bool := image.mimeType = "image/svg+xml"

/-- `"".join(content.split())`. -/
def ImageOutput.payload (image : ImageOutput) : Chars :=
  (PyText.splitFrom [] image.content).flatten

/-- What is written to the file, `none` where decoding raises. -/
def ImageOutput.bytes? (image : ImageOutput) : Option (List UInt8) :=
  if image.isText then some (utf8Encode image.content) else Base64.b64decode image.payload

/-! ## Saving -/

/-- The file operations so far and what they have written, the latest first. -/
structure Disk where
  operations : Nat
  written : List (Chars × List UInt8)

namespace Disk

/-- What a file holds. -/
def content (disk : Disk) (path : Chars) : Option (List UInt8) := disk.written.lookup path

/-- A file operation that writes nothing. -/
def touch (disk : Disk) : Disk := { disk with operations := disk.operations + 1 }

def write (disk : Disk) (path : Chars) (bytes : List UInt8) : Disk :=
  ⟨disk.operations + 1, (path, bytes) :: disk.written⟩

end Disk

/-- What `save_image_outputs` depends on beside its arguments. -/
structure Platform where
  sha1 : HexHash
  /-- The characters that `repr` shows as they are. -/
  printable : Char → Bool
  /-- The text of the error that `b64decode` raises. -/
  decodeError : Chars → Chars
  /-- The text of the `OSError` that the file operation of that number raises. -/
  osError : Nat → Option Chars

section

variable (platform : Platform) (target : Chars)

/-- `f"{_safe_file_stem(self.id)}-out{index}.{extension}"`. -/
def imageFileName (id : CellId) (image : ImageOutput) : Chars :=
  safeFileStem platform.sha1 id.toList ++ "-out".toList ++ Nat.toDigits 10 image.index ++
    '.' :: image.extension.toList

def imagePath (id : CellId) (image : ImageOutput) : Chars :=
  joinPath target (imageFileName platform id image)

/-- The `try` block: decode and write. -/
def saveImage (id : CellId) (disk : Disk) (image : ImageOutput) : Disk × Except SdkError Chars :=
  let path := imagePath platform target id image
  match image.bytes? with
  | none =>
      (disk, .error (.hypernoteError
        ("Could not decode " ++ image.mimeType ++ " output for cell " ++
          String.ofList (PyText.repr platform.printable id.toList) ++ ": " ++
          String.ofList (platform.decodeError image.payload))))
  | some bytes =>
      match platform.osError disk.operations with
      | some exc =>
          (disk.touch, .error (.hypernoteError
            ("Could not write image output to " ++ String.ofList path ++ ": " ++
              String.ofList exc)))
      | none => (disk.write path bytes, .ok path)

/-- The loops over the outputs and the types. -/
def saveImages (id : CellId) : Disk → List ImageOutput → Disk × Except SdkError (List Chars)
  | disk, [] => (disk, .ok [])
  | disk, image :: images =>
      match saveImage platform target id disk image with
      | (disk, .error error) => (disk, .error error)
      | (disk, .ok path) =>
          match saveImages id disk images with
          | (disk, .error error) => (disk, .error error)
          | (disk, .ok saved) => (disk, .ok (path :: saved))

/-- `CellStatus.save_image_outputs`. -/
def CellStatus.saveImageOutputs (status : CellStatus) (disk : Disk) :
    Disk × Except SdkError (List Chars) :=
  match requireRawOutputs status.shownOutputs with
  | .error error => (disk, .error error)
  | .ok () =>
      match platform.osError disk.operations with
      | some exc =>
          (disk.touch, .error (.hypernoteError
            ("Could not create image directory " ++ String.ofList target ++ ": " ++
              String.ofList exc)))
      | none => saveImages platform target status.id disk.touch (imagesOf status.shownOutputs)

/-- The loop over the cells. -/
def saveCells : Disk → List CellStatus → Disk × Except SdkError (List Chars)
  | disk, [] => (disk, .ok [])
  | disk, cell :: cells =>
      match cell.saveImageOutputs platform target disk with
      | (disk, .error error) => (disk, .error error)
      | (disk, .ok saved) =>
          match saveCells disk cells with
          | (disk, .error error) => (disk, .error error)
          | (disk, .ok rest) => (disk, .ok (saved ++ rest))

/-- `NotebookStatus.save_image_outputs`. -/
def NotebookStatus.saveImageOutputs (status : NotebookStatus) (disk : Disk) :
    Disk × Except SdkError (List Chars) :=
  saveCells platform target disk status.cells

end

/-! ## What a call has written -/

/-- The file that the image is saved to, and what it holds. -/
def IsFileOf (platform : Platform) (target : Chars) (id : CellId) (image : ImageOutput)
    (file : Chars × List UInt8) : Prop :=
  file.1 = imagePath platform target id image ∧ image.bytes? = some file.2

variable {platform : Platform} {target : Chars} {id : CellId} {disk disk' : Disk}

theorem saveImage_cases (platform : Platform) (target : Chars) (id : CellId) (disk : Disk)
    (image : ImageOutput) :
    (∃ disk' message, saveImage platform target id disk image =
        (disk', .error (.hypernoteError message)) ∧ disk'.written = disk.written) ∨
      ∃ bytes, image.bytes? = some bytes ∧
        saveImage platform target id disk image =
          (disk.write (imagePath platform target id image) bytes,
            .ok (imagePath platform target id image)) := by
  unfold saveImage
  dsimp only
  split
  · exact .inl ⟨_, _, rfl, rfl⟩
  · rename_i bytes hbytes
    split
    · exact .inl ⟨_, _, rfl, rfl⟩
    · exact .inr ⟨bytes, hbytes, rfl⟩

/-- The images are saved one after the other, all of them or up to the one that raises. -/
theorem saveImages_cases (platform : Platform) (target : Chars) (id : CellId)
    (images : List ImageOutput) (disk : Disk) :
    ∃ disk' result files, saveImages platform target id disk images = (disk', result) ∧
      disk'.written = files.reverse ++ disk.written ∧
      (result = .ok (files.map Prod.fst) ∧
          List.Forall₂ (IsFileOf platform target id) images files ∨
        (∃ message, result = .error (.hypernoteError message)) ∧
          ∃ done rest, images = done ++ rest ∧
            List.Forall₂ (IsFileOf platform target id) done files) := by
  induction images generalizing disk with
  | nil => exact ⟨disk, _, [], rfl, rfl, .inl ⟨rfl, .nil⟩⟩
  | cons image images ih =>
      rw [saveImages]
      rcases saveImage_cases platform target id disk image with
        ⟨disk', message, hsave, hwritten⟩ | ⟨bytes, hbytes, hsave⟩
      · rw [hsave]
        exact ⟨disk', _, [], rfl, hwritten, .inr ⟨⟨message, rfl⟩, [], image :: images, rfl, .nil⟩⟩
      · rw [hsave]
        dsimp only
        obtain ⟨disk', result, files, hrest, hwritten, hcases⟩ :=
          ih (disk.write (imagePath platform target id image) bytes)
        rw [hrest]
        have hfile : IsFileOf platform target id image (imagePath platform target id image, bytes) :=
          ⟨rfl, hbytes⟩
        have hall : disk'.written =
            ((imagePath platform target id image, bytes) :: files).reverse ++ disk.written := by
          rw [hwritten, List.reverse_cons, List.append_assoc]
          rfl
        rcases hcases with ⟨rfl, hfiles⟩ | ⟨⟨message, rfl⟩, done, rest, rfl, hfiles⟩
        · exact ⟨disk', _, _, rfl, hall, .inl ⟨rfl, .cons hfile hfiles⟩⟩
        · exact ⟨disk', _, _, rfl, hall,
            .inr ⟨⟨message, rfl⟩, image :: done, rest, rfl, .cons hfile hfiles⟩⟩

end Sdk

end Hypernote
