import Hypernote.Foundation.Dict
import Hypernote.Sdk.ImageFiles
/-!
# Which images keep their files

The name of a file tells the stem, the index and the type of its image, so images share a file
exactly if their cells share a stem.  An id that is rewritten ends in a part of its digest, and
nothing keeps another id from being just that name.
-/

namespace Hypernote

open Foundation

namespace Sdk

/-! ## Names -/

/-- Nothing of the id has to be rewritten. -/
def SafeId (value : Chars) : Prop := ∀ c ∈ value, isSafe c = true

/-- What `_safe_file_stem` makes of an id that is not safe. -/
def rewrittenStem (sha1 : HexHash) (value : Chars) : Chars :=
  stemBase (sanitized value) ++ '-' :: (sha1.hexdigest value).take 8

/-- Two ids that get the same stem. -/
inductive StemClash (sha1 : HexHash) : Chars → Chars → Prop
  | unnamed : StemClash sha1 [] "cell".toList
  | rewritten {other : Chars} (hother : ¬ SafeId other) :
      StemClash sha1 (rewrittenStem sha1 other) other
  | digests {id other : Chars} (hid : ¬ SafeId id) (hother : ¬ SafeId other)
      (hbase : stemBase (sanitized id) = stemBase (sanitized other))
      (hdigest : (sha1.hexdigest id).take 8 = (sha1.hexdigest other).take 8) :
      StemClash sha1 id other

section

variable {α : Type} {p : α → Prop} {xs ys ds es : List α} {c d : α}

/-- A list is divided at its last element that fails a test in one way only. -/
theorem append_cons_inj_of_forall (hds : ∀ a ∈ ds, p a) (hes : ∀ a ∈ es, p a) (hc : ¬ p c)
    (hd : ¬ p d) (h : xs ++ c :: ds = ys ++ d :: es) : xs = ys ∧ c = d ∧ ds = es := by
  rcases List.append_eq_append_iff.mp h with ⟨mid, hys, hrest⟩ | ⟨mid, hxs, hrest⟩
  · cases mid with
    | nil =>
        cases hrest
        exact ⟨by rw [hys, List.append_nil], rfl, rfl⟩
    | cons m mid =>
        cases hrest
        exact absurd (hds d (List.mem_append_right _ (List.mem_cons_self ..))) hd
  · cases mid with
    | nil =>
        cases hrest
        exact ⟨by rw [hxs, List.append_nil], rfl, rfl⟩
    | cons m mid =>
        cases hrest
        exact absurd (hes c (List.mem_append_right _ (List.mem_cons_self ..))) hc

end

variable {sha1 : HexHash}

theorem sanitized_eq_self_iff {value : Chars} : sanitized value = value ↔ SafeId value := by
  induction value with
  | nil => exact iff_of_true rfl (List.forall_mem_nil _)
  | cons c cs ih =>
      have hcons : sanitized (c :: cs) = (if isSafe c then c else '-') :: sanitized cs := rfl
      have hsafe : SafeId (c :: cs) ↔ isSafe c = true ∧ SafeId cs := List.forall_mem_cons
      rw [hcons, List.cons.injEq, ih, hsafe]
      refine and_congr_left fun _ => ?_
      constructor
      · intro h
        split at h
        · assumption
        · rw [← h]
          decide
      · exact fun h => if_pos h

theorem safe_sanitized (value : Chars) : SafeId (sanitized value) := by
  intro c hc
  obtain ⟨c', -, rfl⟩ := List.mem_map.mp hc
  split
  · assumption
  · decide

theorem safe_of_all {value : Chars} (h : value.all isSafe = true) : SafeId value :=
  List.all_eq_true.mp h

theorem safe_stemBase {stem : Chars} (h : SafeId stem) : SafeId (stemBase stem) := by
  unfold stemBase
  dsimp only
  split
  · exact safe_of_all (by decide)
  · intro c hc
    have hprefix := (List.rdropWhile_prefix (· = '-') (stem.dropWhile (· = '-'))).subset hc
    exact h c ((List.dropWhile_sublist _).subset hprefix)

theorem safe_digest {value : Chars} {n : Nat} {c : Char} (hc : c ∈ (sha1.hexdigest value).take n) :
    isSafe c = true ∧ c ≠ '-' := by
  have hdigit := List.all_eq_true.mp (sha1.hex value) c (List.mem_of_mem_take hc)
  have hsafe : "0123456789abcdef".toList.all (fun c => isSafe c && c != '-') = true := by decide
  simpa using List.all_eq_true.mp hsafe c (of_decide_eq_true hdigit)

theorem safe_rewrittenStem (value : Chars) : SafeId (rewrittenStem sha1 value) := by
  intro c hc
  rcases List.mem_append.mp hc with hc | hc
  · exact safe_stemBase (safe_sanitized value) c hc
  · rcases List.mem_cons.mp hc with rfl | hc
    · decide
    · exact (safe_digest hc).1

theorem dash_mem_rewrittenStem (value : Chars) : '-' ∈ rewrittenStem sha1 value :=
  List.mem_append_right _ (List.mem_cons_self ..)

theorem safeFileStem_of_safe {value : Chars} (h : SafeId value) :
    safeFileStem sha1 value = if value = [] then "cell".toList else value := by
  rw [safeFileStem, sanitized_eq_self_iff.mpr h]
  exact if_pos rfl

theorem safeFileStem_of_not_safe {value : Chars} (h : ¬ SafeId value) :
    safeFileStem sha1 value = rewrittenStem sha1 value :=
  if_neg fun heq => h (sanitized_eq_self_iff.mp heq)

theorem safe_safeFileStem (value : Chars) : SafeId (safeFileStem sha1 value) := by
  by_cases h : SafeId value
  · rw [safeFileStem_of_safe h]
    split
    · exact safe_of_all (by decide)
    · exact h
  · rw [safeFileStem_of_not_safe h]
    exact safe_rewrittenStem value

theorem rewrittenStem_eq_iff {id other : Chars} :
    rewrittenStem sha1 id = rewrittenStem sha1 other ↔
      stemBase (sanitized id) = stemBase (sanitized other) ∧
        (sha1.hexdigest id).take 8 = (sha1.hexdigest other).take 8 := by
  constructor
  · intro h
    obtain ⟨hbase, -, hdigest⟩ := append_cons_inj_of_forall (p := (· ≠ '-'))
      (fun c hc => (safe_digest hc).2) (fun c hc => (safe_digest hc).2) (not_not.mpr rfl)
      (not_not.mpr rfl) h
    exact ⟨hbase, hdigest⟩
  · rintro ⟨hbase, hdigest⟩
    rw [rewrittenStem, rewrittenStem, hbase, hdigest]

theorem StemClash.eq {id other : Chars} (h : StemClash sha1 id other) :
    safeFileStem sha1 id = safeFileStem sha1 other := by
  cases h with
  | unnamed => rfl
  | rewritten hother =>
      rw [safeFileStem_of_not_safe hother, safeFileStem_of_safe (safe_rewrittenStem other),
        if_neg (List.ne_nil_of_mem (dash_mem_rewrittenStem other))]
  | digests hid hother hbase hdigest =>
      rw [safeFileStem_of_not_safe hid, safeFileStem_of_not_safe hother]
      exact rewrittenStem_eq_iff.mpr ⟨hbase, hdigest⟩

/-- A safe id keeps its name, so another one has to be rewritten to it, or neither is a name. -/
theorem stemClash_of_safe {id other : Chars} (hid : SafeId id) (hne : id ≠ other)
    (h : safeFileStem sha1 id = safeFileStem sha1 other) :
    StemClash sha1 id other ∨ StemClash sha1 other id := by
  rw [safeFileStem_of_safe hid] at h
  by_cases hother : SafeId other
  · rw [safeFileStem_of_safe hother] at h
    split at h
    · rename_i hnil
      rw [hnil] at hne ⊢
      rw [if_neg (Ne.symm hne)] at h
      exact .inl (h ▸ .unnamed)
    · split at h
      · rename_i hnil
        rw [hnil, h]
        exact .inr .unnamed
      · exact absurd h hne
  · rw [safeFileStem_of_not_safe hother] at h
    split at h
    · have hdash : '-' ∈ rewrittenStem sha1 other := dash_mem_rewrittenStem other
      rw [← h] at hdash
      exact absurd hdash (by decide)
    · exact .inl (h ▸ .rewritten hother)

theorem safeFileStem_eq_iff {id other : Chars} (hne : id ≠ other) :
    safeFileStem sha1 id = safeFileStem sha1 other ↔
      StemClash sha1 id other ∨ StemClash sha1 other id := by
  refine ⟨fun h => ?_, fun h => h.elim StemClash.eq fun h => h.eq.symm⟩
  by_cases hid : SafeId id
  · exact stemClash_of_safe hid hne h
  · by_cases hother : SafeId other
    · exact (stemClash_of_safe hother hne.symm h.symm).symm
    · rw [safeFileStem_of_not_safe hid, safeFileStem_of_not_safe hother] at h
      obtain ⟨hbase, hdigest⟩ := rewrittenStem_eq_iff.mp h
      exact .inl (.digests hid hother hbase hdigest)

/-! ## Paths -/

/-- The file is in the directory itself. -/
def LiesIn (target path : Chars) : Prop :=
  ∃ name, path = joinPath target name ∧ '/' ∉ name ∧ '\\' ∉ name ∧
    name ∉ [[], ['.'], ['.', '.']]

variable {platform : Platform} {target : Chars} {id id' : CellId} {image image' : ImageOutput}

theorem joinPath_injective (target : Chars) : Function.Injective (joinPath target) := by
  intro name name' h
  unfold joinPath at h
  split at h
  · exact h
  · split at h
    · exact List.append_cancel_left h
    · exact List.tail_eq_of_cons_eq (List.append_cancel_left h)

theorem isSafe_of_isDigit {c : Char} (h : c.isDigit = true) : isSafe c = true := by
  rw [Char.isDigit, Bool.and_eq_true, decide_eq_true_eq, decide_eq_true_eq] at h
  have hdigit : '0' ≤ c ∧ c ≤ '9' := h
  simp [isSafe, hdigit]

theorem isDigit_of_mem_toDigits {n : Nat} {c : Char} (h : c ∈ Nat.toDigits 10 n) :
    c.isDigit = true :=
  Nat.isDigit_of_mem_toDigits (by decide) (by decide) h

theorem toDigits_injective : Function.Injective (Nat.toDigits 10) := by
  intro i j h
  have hvalue := congrArg (Nat.ofDigitChars 10 · 0) h
  simpa only [Nat.ofDigitChars_ten_toDigits] using hvalue

/-- The stem, the index and the type are read from the end of a name. -/
theorem imageFileName_inj (hlength : image.extension.toList.length = image'.extension.toList.length)
    (h : imageFileName platform id image = imageFileName platform id' image') :
    safeFileStem platform.sha1 id.toList = safeFileStem platform.sha1 id'.toList ∧
      image.index = image'.index ∧ image.extension = image'.extension := by
  obtain ⟨hfront, hext⟩ := List.append_inj' h (congrArg Nat.succ hlength)
  have hsplit : ∀ stem digits : Chars,
      stem ++ "-out".toList ++ digits = (stem ++ "-ou".toList) ++ 't' :: digits := by
    intro stem digits
    simp
  rw [hsplit, hsplit] at hfront
  obtain ⟨hstem, -, hdigits⟩ := append_cons_inj_of_forall (p := fun c => c.isDigit = true)
    (fun c => isDigit_of_mem_toDigits) (fun c => isDigit_of_mem_toDigits) (by decide) (by decide)
    hfront
  exact ⟨List.append_cancel_right hstem, toDigits_injective hdigits,
    String.toList_inj.mp (List.tail_eq_of_cons_eq hext)⟩

/-! ## The images of a cell -/

/-- The image is the payload of a supported type of one of the outputs, a string that is not
blank. -/
def IsImageOf (outputs : List OutputDict) (image : ImageOutput) : Prop :=
  ∃ output data content, outputs[image.index]? = some output ∧
    output.get? "data" = some (.obj data) ∧
    (image.mimeType, image.extension) ∈ imageMimeExtensions ∧
    (data.lookup image.mimeType).map joinedDataContent = some (.str content) ∧
    PyText.strip content.toList ≠ [] ∧ image.content = content.toList

theorem imageOf?_eq_some {data : List (String × Json)} {index : Nat} {mimeType extension : String} :
    imageOf? data index mimeType extension = some image ↔
      image.index = index ∧ image.mimeType = mimeType ∧ image.extension = extension ∧
        ∃ content, (data.lookup mimeType).map joinedDataContent = some (.str content) ∧
          PyText.strip content.toList ≠ [] ∧ image.content = content.toList := by
  unfold imageOf?
  split
  · rename_i content hcontent
    rw [hcontent, Option.ite_none_left_eq_some, Option.some.injEq]
    constructor
    · rintro ⟨hblank, rfl⟩
      exact ⟨rfl, rfl, rfl, content, rfl, hblank, rfl⟩
    · rintro ⟨rfl, rfl, rfl, content', heq, hblank, himage⟩
      obtain rfl : content = content' := by
        rw [Option.some.injEq, Json.str.injEq] at heq
        exact heq
      refine ⟨hblank, ?_⟩
      rw [← himage]
  · rename_i hother
    refine iff_of_false (fun h => by cases h) ?_
    rintro ⟨-, -, -, content, hcontent, -⟩
    exact hother content hcontent

theorem mem_imagesIn {output : OutputDict} {index : Nat} :
    image ∈ imagesIn output index ↔
      image.index = index ∧ ∃ data content, output.get? "data" = some (.obj data) ∧
        (image.mimeType, image.extension) ∈ imageMimeExtensions ∧
        (data.lookup image.mimeType).map joinedDataContent = some (.str content) ∧
        PyText.strip content.toList ≠ [] ∧ image.content = content.toList := by
  unfold imagesIn
  split
  · rename_i data hdata
    rw [hdata, List.mem_filterMap]
    constructor
    · rintro ⟨⟨mimeType, extension⟩, hkind, himage⟩
      obtain ⟨hindex, rfl, rfl, content, hcontent⟩ := imageOf?_eq_some.mp himage
      exact ⟨hindex, data, content, rfl, hkind, hcontent⟩
    · rintro ⟨hindex, data', content, heq, hkind, hcontent⟩
      rw [Option.some.injEq, Json.obj.injEq] at heq
      subst heq
      exact ⟨_, hkind, imageOf?_eq_some.mpr ⟨hindex, rfl, rfl, content, hcontent⟩⟩
  · rename_i hother
    refine iff_of_false List.not_mem_nil ?_
    rintro ⟨-, data, content, hdata, -⟩
    exact hother data hdata

theorem mem_imagesOf {outputs : List OutputDict} :
    image ∈ imagesOf outputs ↔ IsImageOf outputs image := by
  rw [imagesOf, List.mem_flatMap]
  constructor
  · rintro ⟨⟨output, index⟩, hentry, himage⟩
    obtain ⟨rfl, data, content, himage⟩ := mem_imagesIn.mp himage
    exact ⟨output, data, content, List.mem_zipIdx_iff_getElem?.mp hentry, himage⟩
  · rintro ⟨output, data, content, hentry, himage⟩
    exact ⟨(output, image.index), List.mem_zipIdx_iff_getElem?.mpr hentry,
      mem_imagesIn.mpr ⟨rfl, data, content, himage⟩⟩

theorem length_extension {kind : String × String} (h : kind ∈ imageMimeExtensions) :
    kind.2.toList.length = 3 :=
  (by decide : ∀ kind ∈ imageMimeExtensions, kind.2.toList.length = 3) kind h

theorem extension_inj {kind kind' : String × String} (h : kind ∈ imageMimeExtensions)
    (h' : kind' ∈ imageMimeExtensions) : kind.2 = kind'.2 ↔ kind.1 = kind'.1 :=
  (by decide : ∀ kind ∈ imageMimeExtensions, ∀ kind' ∈ imageMimeExtensions,
    (kind.2 = kind'.2 ↔ kind.1 = kind'.1)) kind h kind' h'

theorem IsImageOf.kind_mem {outputs : List OutputDict} (h : IsImageOf outputs image) :
    (image.mimeType, image.extension) ∈ imageMimeExtensions := by
  obtain ⟨_, _, _, -, -, hkind, -⟩ := h
  exact hkind

/-- An output has one image of a type. -/
theorem IsImageOf.unique {outputs : List OutputDict} (h : IsImageOf outputs image)
    (h' : IsImageOf outputs image') (hindex : image.index = image'.index)
    (htype : image.mimeType = image'.mimeType) : image = image' := by
  have hext := (extension_inj h.kind_mem h'.kind_mem).mpr htype
  obtain ⟨output, data, content, houtput, hdata, -, hcontent, -, himage⟩ := h
  obtain ⟨output', data', content', houtput', hdata', -, hcontent', -, himage'⟩ := h'
  rw [hindex] at houtput
  cases houtput.symm.trans houtput'
  cases hdata.symm.trans hdata'
  rw [htype] at hcontent
  cases hcontent.symm.trans hcontent'
  obtain ⟨index, mimeType, extension, content⟩ := image
  obtain ⟨index', mimeType', extension', content'⟩ := image'
  simp only at hindex htype hext himage himage'
  subst hindex htype hext himage himage'
  rfl

theorem nodup_imagesIn (output : OutputDict) (index : Nat) : (imagesIn output index).Nodup := by
  unfold imagesIn
  split
  · rename_i data _
    apply List.Nodup.of_map ImageOutput.extension
    have hextensions : (imageMimeExtensions.map Prod.snd).Nodup := by decide
    exact (map_filterMap_sublist
      (fun _ _ himage => (imageOf?_eq_some.mp himage).2.2.1) imageMimeExtensions).nodup hextensions
  · exact List.nodup_nil

theorem nodup_imagesOf (outputs : List OutputDict) : (imagesOf outputs).Nodup := by
  rw [imagesOf, List.nodup_flatMap]
  refine ⟨fun entry _ => nodup_imagesIn entry.1 entry.2, ?_⟩
  have hplaces : outputs.zipIdx.Pairwise (fun p q => p.2 ≠ q.2) := by
    have hnodup : (outputs.zipIdx.map Prod.snd).Nodup := by
      rw [List.zipIdx_map_snd]
      exact List.nodup_range'
    exact List.pairwise_map.mp hnodup
  refine hplaces.imp fun {p q} hne image hp hq => hne ?_
  rw [← (mem_imagesIn.mp hp).1, (mem_imagesIn.mp hq).1]

/-! ## The images of a notebook -/

def notebookImages (cells : List CellStatus) : List (CellId × ImageOutput) :=
  cells.flatMap fun cell => (imagesOf cell.shownOutputs).map fun image => (cell.id, image)

/-- Every saved image has a file of its own in the directory, and the file holds the image. -/
structure OwnFiles (target : Chars) (cells : List CellStatus) (disk : Disk) (saved : List Chars) :
    Prop where
  distinct : saved.Nodup
  in_directory : ∀ path ∈ saved, LiesIn target path
  images : ∃ images : List (CellId × ImageOutput), images.Nodup ∧
    (∀ id image, (id, image) ∈ images ↔
      ∃ cell ∈ cells, cell.id = id ∧ IsImageOf cell.shownOutputs image) ∧
    List.Forall₂
      (fun entry path => ∃ bytes, entry.2.bytes? = some bytes ∧ disk.content path = some bytes)
      images saved

/-- Cells that have images of one type at one index have ids with different stems. -/
def DifferentStems (sha1 : HexHash) (cells : List CellStatus) : Prop :=
  ∀ cell ∈ cells, ∀ cell' ∈ cells, cell.id ≠ cell'.id → ∀ image image',
    IsImageOf cell.shownOutputs image → IsImageOf cell'.shownOutputs image' →
      image.index = image'.index → image.mimeType = image'.mimeType →
        ¬ StemClash sha1 cell.id.toList cell'.id.toList

variable {cells : List CellStatus} {disk disk' : Disk} {saved : List Chars}

theorem mem_notebookImages :
    (id, image) ∈ notebookImages cells ↔
      ∃ cell ∈ cells, cell.id = id ∧ IsImageOf cell.shownOutputs image := by
  simp only [notebookImages, List.mem_flatMap, List.mem_map, Prod.mk.injEq, mem_imagesOf]
  refine exists_congr fun cell => and_congr_right fun _ => ?_
  constructor
  · rintro ⟨image', himage, hid, rfl⟩
    exact ⟨hid, himage⟩
  · rintro ⟨hid, himage⟩
    exact ⟨image, himage, hid, rfl⟩

theorem nodup_notebookImages (hids : (cells.map CellStatus.id).Nodup) :
    (notebookImages cells).Nodup := by
  rw [notebookImages, List.nodup_flatMap]
  constructor
  · intro cell _
    exact (nodup_imagesOf _).map fun image image' h => (Prod.mk.inj h).2
  · refine (List.pairwise_map.mp hids).imp fun {cell cell'} hne entry h h' => hne ?_
    obtain ⟨image, -, rfl⟩ := List.mem_map.mp h
    obtain ⟨image', -, heq⟩ := List.mem_map.mp h'
    exact (Prod.mk.inj heq).1.symm

theorem CellStatus.saveImageOutputs_ok {cell : CellStatus}
    (h : cell.saveImageOutputs platform target disk = (disk', .ok saved)) :
    ∃ files, saved = files.map Prod.fst ∧ disk'.written = files.reverse ++ disk.written ∧
      List.Forall₂ (IsFileOf platform target cell.id) (imagesOf cell.shownOutputs) files := by
  unfold CellStatus.saveImageOutputs at h
  split at h
  · cases h
  · split at h
    · cases h
    · obtain ⟨disk'', result, files, hsave, hwritten, hcases⟩ :=
        saveImages_cases platform target cell.id (imagesOf cell.shownOutputs) disk.touch
      rw [hsave, Prod.mk.injEq] at h
      obtain ⟨rfl, rfl⟩ := h
      rcases hcases with ⟨hsaved, hfiles⟩ | ⟨⟨message, herror⟩, -⟩
      · exact ⟨files, Except.ok.inj hsaved, hwritten, hfiles⟩
      · cases herror

theorem saveCells_ok (h : saveCells platform target disk cells = (disk', .ok saved)) :
    ∃ files, saved = files.map Prod.fst ∧ disk'.written = files.reverse ++ disk.written ∧
      List.Forall₂ (fun entry => IsFileOf platform target entry.1 entry.2) (notebookImages cells)
        files := by
  induction cells generalizing disk disk' saved with
  | nil =>
      cases h
      exact ⟨[], rfl, rfl, .nil⟩
  | cons cell cells ih =>
      rw [saveCells] at h
      split at h
      · cases h
      · rename_i between first hfirst
        split at h
        · cases h
        · rename_i after rest hrest
          cases h
          obtain ⟨files, rfl, hwritten, hfiles⟩ := cell.saveImageOutputs_ok hfirst
          obtain ⟨files', rfl, hwritten', hfiles'⟩ := ih hrest
          refine ⟨files ++ files', (List.map_append).symm, ?_, ?_⟩
          · rw [hwritten', hwritten, List.reverse_append, List.append_assoc]
          · rw [notebookImages, List.flatMap_cons]
            refine List.rel_append ?_ hfiles'
            exact List.forall₂_map_left_iff.mpr hfiles

theorem map_fst_of_isFileOf {images : List (CellId × ImageOutput)}
    {files : List (Chars × List UInt8)}
    (h : List.Forall₂ (fun entry => IsFileOf platform target entry.1 entry.2) images files) :
    files.map Prod.fst = images.map fun entry => imagePath platform target entry.1 entry.2 := by
  induction h with
  | nil => rfl
  | cons hfile _ ih => rw [List.map_cons, List.map_cons, ih, hfile.1]

/-- What has been written to files with different names is there. -/
theorem content_of_nodup {files : List (Chars × List UInt8)} (hnodup : (files.map Prod.fst).Nodup)
    (hwritten : disk'.written = files.reverse ++ disk.written) {file : Chars × List UInt8}
    (hfile : file ∈ files) : disk'.content file.1 = some file.2 := by
  have hreverse : (files.reverse.map Prod.fst).Nodup := by
    rw [List.map_reverse, List.nodup_reverse]
    exact hnodup
  rw [Disk.content, hwritten, List.lookup_append,
    lookup_of_nodup hreverse (List.mem_reverse.mpr hfile)]
  rfl

theorem forall₂_and_mem {α β : Type} {R : α → β → Prop} {xs : List α} {ys : List β}
    (h : List.Forall₂ R xs ys) : List.Forall₂ (fun x y => R x y ∧ y ∈ ys) xs ys := by
  induction h with
  | nil => exact .nil
  | cons hxy _ ih =>
      exact .cons ⟨hxy, List.mem_cons_self ..⟩
        (ih.imp fun x y h => ⟨h.1, List.mem_cons_of_mem _ h.2⟩)

/-! ## Files of their own -/

theorem notebookImages_inj (hids : (cells.map CellStatus.id).Nodup)
    (h : (id, image) ∈ notebookImages cells) (h' : (id, image') ∈ notebookImages cells)
    (hindex : image.index = image'.index) (htype : image.mimeType = image'.mimeType) :
    image = image' := by
  obtain ⟨cell, hcell, hid, himage⟩ := mem_notebookImages.mp h
  obtain ⟨cell', hcell', hid', himage'⟩ := mem_notebookImages.mp h'
  obtain rfl := List.inj_on_of_nodup_map hids hcell hcell' (hid.trans hid'.symm)
  exact himage.unique himage' hindex htype

/-- Images share a path exactly if they have the same index and type and the stems of their cells
are the same. -/
theorem imagePath_eq_iff (h : (id, image) ∈ notebookImages cells)
    (h' : (id', image') ∈ notebookImages cells) :
    imagePath platform target id image = imagePath platform target id' image' ↔
      safeFileStem platform.sha1 id.toList = safeFileStem platform.sha1 id'.toList ∧
        image.index = image'.index ∧ image.mimeType = image'.mimeType := by
  obtain ⟨_, _, _, himage⟩ := mem_notebookImages.mp h
  obtain ⟨_, _, _, himage'⟩ := mem_notebookImages.mp h'
  have hext := extension_inj himage.kind_mem himage'.kind_mem
  constructor
  · intro heq
    have hlength : image.extension.toList.length = image'.extension.toList.length :=
      (length_extension himage.kind_mem).trans (length_extension himage'.kind_mem).symm
    obtain ⟨hstem, hindex, hextension⟩ := imageFileName_inj hlength (joinPath_injective target heq)
    exact ⟨hstem, hindex, hext.mp hextension⟩
  · rintro ⟨hstem, hindex, htype⟩
    have hextension : image.extension = image'.extension := hext.mpr htype
    rw [imagePath, imagePath, imageFileName, imageFileName, hstem, hindex, hextension]

theorem nodup_paths_iff (platform : Platform) (target : Chars)
    (hids : (cells.map CellStatus.id).Nodup) :
    ((notebookImages cells).map fun entry =>
        imagePath platform target entry.1 entry.2).Nodup ↔
      DifferentStems platform.sha1 cells := by
  rw [List.nodup_map_iff_inj_on (nodup_notebookImages hids)]
  constructor
  · intro hpaths cell hcell cell' hcell' hne image image' himage himage' hindex htype hclash
    have h : (cell.id, image) ∈ notebookImages cells :=
      mem_notebookImages.mpr ⟨cell, hcell, rfl, himage⟩
    have h' : (cell'.id, image') ∈ notebookImages cells :=
      mem_notebookImages.mpr ⟨cell', hcell', rfl, himage'⟩
    have hsame := hpaths _ h _ h' ((imagePath_eq_iff h h').mpr ⟨hclash.eq, hindex, htype⟩)
    exact hne (Prod.mk.inj hsame).1
  · rintro hstems ⟨id, image⟩ h ⟨id', image'⟩ h' heq
    obtain ⟨hstem, hindex, htype⟩ := (imagePath_eq_iff h h').mp heq
    obtain ⟨cell, hcell, rfl, himage⟩ := mem_notebookImages.mp h
    obtain ⟨cell', hcell', rfl, himage'⟩ := mem_notebookImages.mp h'
    by_cases hid : cell.id = cell'.id
    · rw [← hid] at h'
      rw [← hid, notebookImages_inj hids h h' hindex htype]
    · have hne : cell.id.toList ≠ cell'.id.toList := fun h => hid (String.toList_inj.mp h)
      rcases (safeFileStem_eq_iff hne).mp hstem with hclash | hclash
      · exact absurd hclash
          (hstems cell hcell cell' hcell' hid image image' himage himage' hindex htype)
      · exact absurd hclash (hstems cell' hcell' cell hcell (Ne.symm hid) image' image himage' himage
          hindex.symm htype.symm)

theorem liesIn_imagePath {outputs : List OutputDict} (h : IsImageOf outputs image) :
    LiesIn target (imagePath platform target id image) := by
  have hext : ∀ kind ∈ imageMimeExtensions, kind.2.toList.all isSafe = true := by decide
  have hsafe : ∀ c ∈ imageFileName platform id image, isSafe c = true := by
    intro c hc
    simp only [imageFileName, List.mem_append, List.mem_cons] at hc
    rcases hc with ((hc | hc) | hc) | rfl | hc
    · exact safe_safeFileStem _ c hc
    · exact safe_of_all (by decide : "-out".toList.all isSafe = true) c hc
    · exact isSafe_of_isDigit (isDigit_of_mem_toDigits hc)
    · decide
    · exact safe_of_all (hext _ h.kind_mem) c hc
  have hdash : '-' ∈ imageFileName platform id image := by
    simp [imageFileName]
  refine ⟨_, rfl, fun hmem => ?_, fun hmem => ?_, fun hmem => ?_⟩
  · exact absurd (hsafe _ hmem) (by decide)
  · exact absurd (hsafe _ hmem) (by decide)
  · have hno : ∀ name ∈ ([[], ['.'], ['.', '.']] : List Chars), '-' ∉ name := by decide
    exact hno _ hmem hdash

/-- Where the cells have different ids and the call succeeds, every image keeps a file of its own
exactly if no two cells with images of one type at one index have ids with the same stem: the empty
id and `cell`, an id and the name that another one is rewritten to, or two ids that are rewritten to
one name. -/
theorem own_files_iff {status : NotebookStatus} (hids : (status.cells.map CellStatus.id).Nodup)
    (h : status.saveImageOutputs platform target disk = (disk', .ok saved)) :
    OwnFiles target status.cells disk' saved ↔ DifferentStems platform.sha1 status.cells := by
  obtain ⟨files, rfl, hwritten, hfiles⟩ := saveCells_ok h
  have hpaths := map_fst_of_isFileOf hfiles
  rw [← nodup_paths_iff platform target hids, ← hpaths]
  refine ⟨fun hown => hown.distinct, fun hnodup => ⟨hnodup, ?_, ?_⟩⟩
  · intro path hpath
    rw [hpaths] at hpath
    obtain ⟨⟨id, image⟩, hentry, rfl⟩ := List.mem_map.mp hpath
    obtain ⟨cell, -, -, himage⟩ := mem_notebookImages.mp hentry
    exact liesIn_imagePath himage
  · refine ⟨notebookImages status.cells, nodup_notebookImages hids,
      fun id image => mem_notebookImages, ?_⟩
    rw [List.forall₂_map_right_iff]
    exact (forall₂_and_mem hfiles).imp fun entry file hfile =>
      ⟨file.2, hfile.1.2, content_of_nodup hnodup hwritten hfile.2⟩

/-- An output with an image, as a kernel sends it. -/
def plot (payload : String) : OutputDict where
  members :=
    [("output_type", .str "display_data"), ("data", .obj [("image/png", .str payload)]),
      ("metadata", .obj [])]
  traceback_lines := fun _ h => nomatch h
  metadata_dict := fun _ h => .inr ⟨_, (Option.some.inj h).symm⟩

def plotting (id : CellId) (payload : String) : CellStatus :=
  ⟨id, .code, false, [], some [], some [plot payload], some 1⟩

/-- No file operation raises; the digest is that of `cell/1`. -/
def quietPlatform : Platform where
  sha1 :=
    { hexdigest := fun _ => "397a7b971ad77dafb2536d1c2faeda75a7158349".toList
      hex := fun _ => by decide }
  printable _ := true
  decodeError _ := []
  osError _ := none

/-- Two plain ids. -/
theorem plain_ids_own_files :
    ∃ disk' saved, saved.length = 2 ∧
      OwnFiles "plots".toList [plotting "a" "QUJD", plotting "b" "REVG"] disk' saved := by
  have hsaved : NotebookStatus.saveImageOutputs quietPlatform "plots".toList
      ⟨[plotting "a" "QUJD", plotting "b" "REVG"]⟩ ⟨0, []⟩ =
        (⟨4, [("plots/b-out0.png".toList, [68, 69, 70]),
            ("plots/a-out0.png".toList, [65, 66, 67])]⟩,
          .ok ["plots/a-out0.png".toList, "plots/b-out0.png".toList]) := by
    rfl
  refine ⟨_, _, rfl, (own_files_iff (by decide) hsaved).mpr ?_⟩
  intro cell hcell cell' hcell' hne image image' _ _ _ _ hclash
  have hstem : safeFileStem quietPlatform.sha1 "a".toList ≠
      safeFileStem quietPlatform.sha1 "b".toList := by decide
  simp only [List.mem_cons, List.not_mem_nil, or_false] at hcell hcell'
  rcases hcell with rfl | rfl <;> rcases hcell' with rfl | rfl
  · exact hne rfl
  · exact hstem hclash.eq
  · exact hstem hclash.eq.symm
  · exact hne rfl

/-- The image of the cell `cell-1-397a7b97` overwrites that of the cell `cell/1`. -/
theorem rewritten_id_taken :
    ¬ ∀ (platform : Platform) (target : Chars) (status : NotebookStatus) (disk disk' : Disk)
      (saved : List Chars), (status.cells.map CellStatus.id).Nodup →
        status.saveImageOutputs platform target disk = (disk', .ok saved) →
          OwnFiles target status.cells disk' saved := by
  intro h
  have hsaved : NotebookStatus.saveImageOutputs quietPlatform "plots".toList
      ⟨[plotting "cell/1" "QUJD", plotting "cell-1-397a7b97" "REVG"]⟩ ⟨0, []⟩ =
        (⟨4, [("plots/cell-1-397a7b97-out0.png".toList, [68, 69, 70]),
            ("plots/cell-1-397a7b97-out0.png".toList, [65, 66, 67])]⟩,
          .ok ["plots/cell-1-397a7b97-out0.png".toList,
            "plots/cell-1-397a7b97-out0.png".toList]) := by
    rfl
  have hown := h _ _ _ _ _ _ (by decide) hsaved
  exact absurd hown.distinct (by decide)

end Sdk

end Hypernote
