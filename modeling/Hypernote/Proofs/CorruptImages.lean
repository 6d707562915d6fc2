import Hypernote.Foundation.Histories
import Hypernote.Proofs.SavedImages
/-!
# Which payloads become images

`b64decode` discards what is not in the alphabet, and stops where some padding completes a group, so
it also takes payloads that are not well-formed.
-/

namespace Hypernote

open Foundation

namespace Sdk

/-- The payload, its white space removed, is well-formed base64. -/
def WellFormed (image : ImageOutput) : Prop :=
  ∃ bytes, Base64.Encodes (image.content.filter fun c => !PyText.isSpace c) bytes

/-- What one call makes of the png and jpeg payloads of the cell: it writes the decoding of
well-formed ones only, and raises where one is not well-formed. -/
structure OnlyWellFormed (platform : Platform) (target : Chars) (cell : CellStatus)
    (disk disk' : Disk) (result : Except SdkError (List Chars)) : Prop where
  written : ∃ files, disk'.written = files ++ disk.written ∧ ∀ file ∈ files, ∃ image,
    IsImageOf cell.shownOutputs image ∧ file.1 = imagePath platform target cell.id image ∧
      (image.isText = false →
        Base64.Encodes (image.content.filter fun c => !PyText.isSpace c) file.2)
  raised :
    (∃ image, IsImageOf cell.shownOutputs image ∧ image.isText = false ∧ ¬ WellFormed image) →
      ∃ message, result = .error (.hypernoteError message)

/-- Every call does so, whichever file operations raise. -/
def RejectsMalformed (platform : Platform) (target : Chars) (cell : CellStatus) : Prop :=
  ∀ (osError : Nat → Option Chars) (disk : Disk),
    let run := cell.saveImageOutputs { platform with osError := osError } target disk
    OnlyWellFormed platform target cell disk run.1 run.2

/-- The payload is a text or ASCII, and of what is in the alphabet some padding completes a group or
the other characters come in groups of four. -/
def Taken (image : ImageOutput) : Prop :=
  image.isText = true ∨
    (∀ c ∈ image.content.filter fun c => !PyText.isSpace c, c.toNat < 128) ∧
      (Base64.Padded
          (Base64.alphabetOnly (image.content.filter fun c => !PyText.isSpace c)) ∨
        Base64.dataCount
          (Base64.alphabetOnly (image.content.filter fun c => !PyText.isSpace c)) % 4 = 0)

/-- The payload is taken for an image although it is not well-formed. -/
def Corrupt (image : ImageOutput) : Prop :=
  image.isText = false ∧ Taken image ∧ ¬ WellFormed image

variable {platform : Platform} {target : Chars} {id : CellId} {image : ImageOutput} {disk : Disk}
  {cell : CellStatus}

theorem payload_eq (image : ImageOutput) :
    image.payload = image.content.filter fun c => !PyText.isSpace c :=
  PyText.flatten_splitFrom [] image.content

theorem isSome_bytes?_iff : image.bytes?.isSome = true ↔ Taken image := by
  rw [ImageOutput.bytes?, Taken, ← payload_eq]
  cases image.isText with
  | true => exact iff_of_true rfl (.inl rfl)
  | false =>
      rw [if_neg Bool.false_ne_true, Base64.isSome_b64decode]
      exact (or_iff_right Bool.false_ne_true).symm

theorem bytes?_of_encodes {bytes : List UInt8} (htext : image.isText = false)
    (h : Base64.Encodes (image.content.filter fun c => !PyText.isSpace c) bytes) :
    image.bytes? = some bytes := by
  rw [ImageOutput.bytes?, htext, payload_eq]
  exact h.b64decode_eq

/-- Of the images that are decoded one after the other, none is corrupt. -/
theorem wellFormed_of_not_reaches {images done rest : List ImageOutput}
    (hreaches : ¬ Reaches Taken Corrupt images) (himages : images = done ++ rest)
    (hdone : ∀ image ∈ done, Taken image) (himage : image ∈ done) (htext : image.isText = false) :
    WellFormed image := by
  by_contra hbad
  obtain ⟨pre, post, rfl⟩ := List.append_of_mem himage
  refine hreaches ⟨pre, image, post ++ rest, ?_, ⟨htext, hdone image himage, hbad⟩, ?_⟩
  · rw [himages, List.append_assoc, List.cons_append]
  · exact fun earlier h => hdone earlier (List.mem_append_left _ h)

theorem exists_isFileOf {done : List ImageOutput} {files : List (Chars × List UInt8)}
    (h : List.Forall₂ (IsFileOf platform target id) done files) :
    (∀ file ∈ files, ∃ image ∈ done, IsFileOf platform target id image file) ∧
      ∀ image ∈ done, Taken image := by
  induction h with
  | nil => exact ⟨List.forall_mem_nil _, List.forall_mem_nil _⟩
  | @cons image file done files hfile _ ih =>
      refine ⟨List.forall_mem_cons.mpr ⟨⟨image, List.mem_cons_self .., hfile⟩, ?_⟩,
        List.forall_mem_cons.mpr ⟨?_, ih.2⟩⟩
      · intro file' hmem
        obtain ⟨image', himage', hfile'⟩ := ih.1 file' hmem
        exact ⟨image', List.mem_cons_of_mem _ himage', hfile'⟩
      · rw [← isSome_bytes?_iff, hfile.2]
        rfl

/-- What is there before the loop is there after it. -/
theorem written_saveImages (images : List ImageOutput) (disk : Disk) {file : Chars × List UInt8}
    (h : file ∈ disk.written) : file ∈ (saveImages platform target id disk images).1.written := by
  obtain ⟨disk', result, files, hsave, hwritten, -⟩ :=
    saveImages_cases platform target id images disk
  rw [hsave, hwritten]
  exact List.mem_append_right _ h

/-- Where no file operation raises, the loop gets past every image that is taken. -/
theorem mem_written_saveImages (platform : Platform) (target : Chars) (id : CellId)
    (hos : ∀ n, platform.osError n = none) (done rest : List ImageOutput)
    (hdone : ∀ image ∈ done, Taken image) (disk : Disk) (himage : image ∈ done) :
    ∃ bytes, image.bytes? = some bytes ∧
      (imagePath platform target id image, bytes) ∈
        (saveImages platform target id disk (done ++ rest)).1.written := by
  induction done generalizing disk with
  | nil => cases himage
  | cons first done ih =>
      obtain ⟨hfirst, hdone⟩ := List.forall_mem_cons.mp hdone
      obtain ⟨bytes, hbytes⟩ := Option.isSome_iff_exists.mp (isSome_bytes?_iff.mpr hfirst)
      have hstep : saveImage platform target id disk first =
          (disk.write (imagePath platform target id first) bytes,
            .ok (imagePath platform target id first)) := by
        rw [saveImage, hbytes, hos]
      have hrest : (saveImages platform target id disk (first :: done ++ rest)).1 =
          (saveImages platform target id (disk.write (imagePath platform target id first) bytes)
            (done ++ rest)).1 := by
        rw [List.cons_append, saveImages, hstep]
        dsimp only
        split <;> rename_i hsave <;> rw [hsave]
      rw [hrest]
      rcases List.mem_cons.mp himage with rfl | himage
      · exact ⟨bytes, hbytes, written_saveImages _ _ (List.mem_cons_self ..)⟩
      · exact ih hdone _ himage

/-- A cell has one image at a path. -/
theorem eq_of_imagePath_eq (platform : Platform) {image' : ImageOutput}
    (h : IsImageOf cell.shownOutputs image)
    (h' : IsImageOf cell.shownOutputs image')
    (hpath : imagePath platform target cell.id image = imagePath platform target cell.id image') :
    image = image' := by
  have hmem : ∀ {image}, IsImageOf cell.shownOutputs image →
      (cell.id, image) ∈ notebookImages [cell] :=
    fun h => mem_notebookImages.mpr ⟨cell, List.mem_singleton_self cell, rfl, h⟩
  obtain ⟨-, hindex, htype⟩ := (imagePath_eq_iff (hmem h) (hmem h')).mp hpath
  exact h.unique h' hindex htype

theorem saveImageOutputs_of_raw (hraw : cell.shownOutputs.any isSummarizedOutput = false) :
    cell.saveImageOutputs platform target disk =
      match platform.osError disk.operations with
      | some exc =>
          (disk.touch, .error (.hypernoteError
            ("Could not create image directory " ++ String.ofList target ++ ": " ++
              String.ofList exc)))
      | none => saveImages platform target cell.id disk.touch (imagesOf cell.shownOutputs) := by
  rw [CellStatus.saveImageOutputs, requireRawOutputs, hraw]
  rfl

theorem saveImageOutputs_of_summarized (platform : Platform) (target : Chars) (disk : Disk)
    (hsummarized : cell.shownOutputs.any isSummarizedOutput = true) :
    ∃ message, cell.saveImageOutputs platform target disk =
      (disk, .error (.hypernoteError message)) := by
  rw [CellStatus.saveImageOutputs, requireRawOutputs, hsummarized]
  exact ⟨_, rfl⟩

/-- A call that writes nothing and raises is right about every payload. -/
theorem onlyWellFormed_of_error {disk' : Disk} {message : String}
    (hwritten : disk'.written = disk.written) :
    OnlyWellFormed platform target cell disk disk' (.error (.hypernoteError message)) :=
  ⟨⟨[], hwritten, List.forall_mem_nil _⟩, fun _ => ⟨message, rfl⟩⟩

theorem onlyWellFormed_of_not_reaches (platform : Platform) (target : Chars)
    (hreaches : ¬ Reaches Taken Corrupt (imagesOf cell.shownOutputs)) (disk : Disk) :
    let run := saveImages platform target cell.id disk.touch (imagesOf cell.shownOutputs)
    OnlyWellFormed platform target cell disk run.1 run.2 := by
  intro run
  obtain ⟨disk', result, files, hsave, hwritten, hcases⟩ :=
    saveImages_cases platform target cell.id (imagesOf cell.shownOutputs) disk.touch
  rw [show run = (disk', result) from hsave]
  -- The files are those of the images up to the one that raises, if one does.
  have hdone : ∃ done rest, imagesOf cell.shownOutputs = done ++ rest ∧
      List.Forall₂ (IsFileOf platform target cell.id) done files := by
    rcases hcases with ⟨-, hfiles⟩ | ⟨-, hdone⟩
    · exact ⟨_, [], (List.append_nil _).symm, hfiles⟩
    · exact hdone
  constructor
  · obtain ⟨done, rest, himages, hfiles⟩ := hdone
    obtain ⟨hfile, htaken⟩ := exists_isFileOf hfiles
    refine ⟨files.reverse, hwritten, fun file hmem => ?_⟩
    obtain ⟨image, himage, hpath, hbytes⟩ := hfile file (List.mem_reverse.mp hmem)
    refine ⟨image, mem_imagesOf.mp (himages ▸ List.mem_append_left _ himage), hpath,
      fun htext => ?_⟩
    obtain ⟨bytes, hencodes⟩ := wellFormed_of_not_reaches hreaches himages htaken himage htext
    rw [bytes?_of_encodes htext hencodes, Option.some.injEq] at hbytes
    rw [← hbytes]
    exact hencodes
  · rintro ⟨image, himage, htext, hbad⟩
    rcases hcases with ⟨-, hfiles⟩ | ⟨hraised, -⟩
    · have hmem := mem_imagesOf.mpr himage
      exact absurd (wellFormed_of_not_reaches hreaches (List.append_nil _).symm
        (exists_isFileOf hfiles).2 hmem htext) hbad
    · exact hraised

/-- Where no file operation raises, a corrupt payload that the call gets to is written. -/
theorem exists_corrupt_written (platform : Platform) (target : Chars)
    (hraw : cell.shownOutputs.any isSummarizedOutput = false)
    (hreaches : Reaches Taken Corrupt (imagesOf cell.shownOutputs)) :
    ∃ image bytes, IsImageOf cell.shownOutputs image ∧ Corrupt image ∧
      (imagePath platform target cell.id image, bytes) ∈
        (cell.saveImageOutputs { platform with osError := fun _ => none } target
          ⟨0, []⟩).1.written := by
  obtain ⟨pre, image, post, himages, hcorrupt, hpre⟩ := hreaches
  have hdone : ∀ image' ∈ pre ++ [image], Taken image' :=
    List.forall_mem_append.mpr ⟨hpre, List.forall_mem_singleton.mpr hcorrupt.2.1⟩
  obtain ⟨bytes, -, hmem⟩ := mem_written_saveImages { platform with osError := fun _ => none } target
    cell.id (fun _ => rfl) (pre ++ [image]) post hdone ⟨1, []⟩
    (List.mem_append_right _ (List.mem_singleton_self image))
  refine ⟨image, bytes, ?_, hcorrupt, ?_⟩
  · exact mem_imagesOf.mp (himages ▸ List.mem_append_right _ (List.mem_cons_self ..))
  · rw [saveImageOutputs_of_raw hraw, himages, List.append_cons]
    exact hmem

/-- The png and jpeg payloads of a cell become images only if they are well-formed, and stop the call
otherwise, exactly if the outputs are summaries or no payload that the call gets to is taken although
it is not well-formed: it has characters outside the alphabet, or something after its padding, but
what is left of it has complete groups. -/
theorem rejects_malformed_iff (platform : Platform) (target : Chars) (cell : CellStatus) :
    RejectsMalformed platform target cell ↔
      cell.shownOutputs.any isSummarizedOutput = true ∨
        ¬ Reaches Taken Corrupt (imagesOf cell.shownOutputs) := by
  constructor
  · intro hrejects
    by_contra hnot
    rw [not_or, Bool.not_eq_true, not_not] at hnot
    obtain ⟨hraw, hreaches⟩ := hnot
    obtain ⟨image, bytes, himage, ⟨htext, -, hbad⟩, hmem⟩ :=
      exists_corrupt_written platform target hraw hreaches
    obtain ⟨files, hwritten, hfiles⟩ := (hrejects (fun _ => none) ⟨0, []⟩).written
    rw [hwritten, List.append_nil] at hmem
    obtain ⟨image', himage', hpath, hencodes⟩ := hfiles _ hmem
    obtain rfl := eq_of_imagePath_eq platform himage himage' hpath
    exact hbad ⟨bytes, hencodes htext⟩
  · intro hcondition osError disk
    cases hraw : cell.shownOutputs.any isSummarizedOutput with
    | true =>
        obtain ⟨message, hrun⟩ := saveImageOutputs_of_summarized
          { platform with osError := osError } target disk hraw
        dsimp only
        rw [hrun]
        exact onlyWellFormed_of_error rfl
    | false =>
        have hreaches := hcondition.resolve_left fun h => Bool.false_ne_true (hraw.symm.trans h)
        rw [saveImageOutputs_of_raw hraw]
        dsimp only
        split
        · exact onlyWellFormed_of_error rfl
        · have honly := onlyWellFormed_of_not_reaches { platform with osError := osError } target
            hreaches disk
          exact ⟨honly.written, honly.raised⟩

/-- A payload with a stray character in it is saved as `ABC`. -/
theorem corrupt_payload_saved :
    ¬ ∀ (platform : Platform) (target : Chars) (cell : CellStatus),
      RejectsMalformed platform target cell := by
  intro h
  have hsaved : (plotting "a" "QU!JD").saveImageOutputs quietPlatform "plots".toList ⟨0, []⟩ =
      (⟨2, [("plots/a-out0.png".toList, [65, 66, 67])]⟩, .ok ["plots/a-out0.png".toList]) := by
    rfl
  have hnone : ∀ bytes, ¬ Base64.Encodes "QU!JD".toList bytes := by
    intro bytes hencodes
    cases hencodes with
    | group ha hb hc hd hrest => exact absurd hc (by decide +revert)
  have honly := h quietPlatform "plots".toList (plotting "a" "QU!JD") (fun _ => none) ⟨0, []⟩
  have hraised := honly.raised ⟨⟨0, "image/png", "png", "QU!JD".toList⟩, ?_, rfl,
    fun ⟨bytes, hencodes⟩ => hnone bytes hencodes⟩
  · obtain ⟨message, hraised⟩ := hraised
    rw [show (plotting "a" "QU!JD").saveImageOutputs { quietPlatform with osError := fun _ => none }
      "plots".toList ⟨0, []⟩ = _ from hsaved] at hraised
    cases hraised
  · exact mem_imagesOf.mp (List.mem_singleton_self _)

end Sdk

end Hypernote
