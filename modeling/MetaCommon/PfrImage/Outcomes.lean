import Mathlib.Data.Option.Basic
import MetaCommon.PfrImage.ImageManager

/-!
# What an upload leaves

An upload should succeed with the image at its path and a version registered for it, or fail with no
version registered and the file removed. The conditions under which it does are in terms of the
content of the file, the state before it, and the answers of the services.
-/

namespace MetaCommon.PfrImage

variable {Purpose : Type}

/-- Success with the image at its path and a new version, or failure with the file removed. -/
def Settled (s : Software Purpose) (m : Manager Purpose) (r : Option ℤ × Manager Purpose) : Prop :=
  (r.1 = some 0 ∧ ∃ id v, m.versions id = none ∧
      r.2.versions = Function.update m.versions id (some v) ∧ v.filePath = s.imgUploadDir ++ "/" ++ id ∧
      m.uploaded.isSome ∧ r.2.images id = m.uploaded) ∨
    ((∃ rc ≠ 0, r.1 = some rc) ∧ r.2.versions = m.versions ∧ r.2.uploaded = none)

/-! ### Reading -/

/-- What can be read of a file. -/
def content (a : Answers) (bytes : List UInt8) : List UInt8 := bytes.take a.readable

def PldmVerified (content : List UInt8) (v : Verification) : Prop :=
  readBufferSize ≤ content.length ∧ content.take headerIdLen = pldmPkgHeaderId ∧
    36 + (content.getD 35 0).toNat ≤ content.length ∧
    v = ⟨(content.drop 36).take (content.getD 35 0).toNat, verPurpose ++ "PLDM"⟩

def PfrVerified (a : Answers) (content : List UInt8) (v : Verification) : Prop :=
  tag content = fwupdateImageIdentifier ∧ a.mtdUtil = some 0 ∧
    purposeString (pcType content) = some v.purposeString ∧ v.version = pfrVersion

/-- The file is an image of the version and purpose `v`, and `mtd-util` has nothing against it. -/
def Verified (a : Answers) (bytes : List UInt8) (v : Verification) : Prop :=
  a.opens = true ∧
    if htobe32 (tag (content a bytes)) = pldmMagic then PldmVerified (content a bytes) v
    else PfrVerified a (content a bytes) v

theorem getD_take {l : List UInt8} {n i : ℕ} (h : i < n) : (l.take n).getD i 0 = l.getD i 0 := by
  simp [List.getD_eq_getElem?_getD, h]

theorem tag_take (l : List UInt8) : tag (l.take readBufferSize) = tag l := by
  unfold tag
  rw [getD_take, getD_take, getD_take, getD_take] <;> decide

theorem pcType_take (l : List UInt8) : pcType (l.take readBufferSize) = pcType l :=
  getD_take (by decide)

section Stream

variable {a : Answers} {bytes : List UInt8} {f : ImageFile}

/-- A read of a good stream fails exactly if it comes short. -/
theorem read_good (hgood : f.good = true) (hbytes : f.bytes.take f.readable = content a bytes)
    (hpos : f.pos ≤ (content a bytes).length) (n : ℕ) :
    ∃ f', f.read n = (((content a bytes).drop f.pos).take n, f') ∧
      f'.bytes = f.bytes ∧ f'.readable = f.readable ∧
      (f'.good = true ↔ f.pos + n ≤ (content a bytes).length) := by
  unfold ImageFile.read
  rw [if_pos hgood, hbytes]
  refine ⟨_, rfl, rfl, rfl, ?_⟩
  rw [beq_iff_eq, List.length_take, List.length_drop]
  omega

theorem seekg_read (hgood : f.good = true) (hbytes : f.bytes.take f.readable = content a bytes)
    {pos : ℕ} (hpos : pos ≤ (content a bytes).length) (n : ℕ) :
    ∃ f', (f.seekg pos).read n = (((content a bytes).drop pos).take n, f') ∧
      f'.bytes = f.bytes ∧ f'.readable = f.readable ∧
      (f'.good = true ↔ pos + n ≤ (content a bytes).length) := by
  have hseekg : f.seekg pos = { f with pos := pos } := if_pos hgood
  rw [hseekg]
  apply read_good
  · exact hgood
  · exact hbytes
  · exact hpos

/-- The stream is at the end of block 0, or has failed there. -/
theorem verifyPldm_iff {v : Verification} (hbytes : f.bytes = bytes)
    (hreadable : f.readable = a.readable)
    (hgood : f.good = true ↔ readBufferSize ≤ (content a bytes).length) :
    verifyPldm f = some v ↔ PldmVerified (content a bytes) v := by
  have hsize : readBufferSize = 128 := rfl
  have hcontent : f.bytes.take f.readable = content a bytes := by rw [hbytes, hreadable]; rfl
  unfold verifyPldm PldmVerified
  by_cases hf : f.good = true
  swap
  · have hshort : ¬ readBufferSize ≤ (content a bytes).length := fun h => hf (hgood.mpr h)
    simp [ImageFile.length, ImageFile.seekg, ImageFile.read, hf, hshort]
  have hlong := hgood.mp hf
  have hlength : ¬ f.length < 36 := by
    have hle : (content a bytes).length ≤ f.bytes.length := by
      rw [hbytes]
      exact List.length_take_le' _ _
    unfold ImageFile.length
    rw [if_pos hf]
    omega
  obtain ⟨f₁, hread₁, hbytes₁, hreadable₁, hgood₁⟩ := seekg_read hf hcontent (Nat.zero_le _) 36
  have hf₁ : f₁.good = true := hgood₁.mpr (by omega)
  have hcontent₁ : f₁.bytes.take f₁.readable = content a bytes := by
    rw [hbytes₁, hreadable₁, hcontent]
  obtain ⟨f₂, hread₂, -, -, hgood₂⟩ := seekg_read hf₁ hcontent₁
    (show 36 ≤ (content a bytes).length by omega) ((content a bytes).getD 35 0).toNat
  have hid : ((content a bytes).take 36).take headerIdLen = (content a bytes).take headerIdLen := by
    rw [List.take_take]
    rfl
  have hlen : ((content a bytes).take 36).getD 35 0 = (content a bytes).getD 35 0 :=
    getD_take (by omega)
  simp only [if_neg hlength, hread₁, hf₁, not_true, if_false, List.drop_zero, hid, hlen, hread₂]
  by_cases hheader : (content a bytes).take headerIdLen = pldmPkgHeaderId
  swap
  · simp [hheader]
  by_cases hf₂ : f₂.good = true
  · have hfits := hgood₂.mp hf₂
    simp only [hheader, hf₂, hlong, hfits, ne_eq, not_true, if_false, true_and, Option.some_inj]
    exact eq_comm
  · have hshort : ¬ 36 + ((content a bytes).getD 35 0).toNat ≤ (content a bytes).length :=
      fun h => hf₂ (hgood₂.mpr h)
    simp only [hf₂, hshort]
    simp

end Stream

theorem verifyFile_iff (a : Answers) (bytes : List UInt8) (v : Verification) :
    verifyFile a bytes = some v ↔ Verified a bytes v := by
  unfold verifyFile Verified
  by_cases hopens : a.opens = true
  swap
  · simp [ImageFile.start, hopens]
  have hf : (ImageFile.start a bytes).good = true := hopens
  obtain ⟨f, hread, hbytes, hreadable, hgood⟩ :=
    read_good hf (rfl : _ = content a bytes) (Nat.zero_le _) readBufferSize
  rw [show (ImageFile.start a bytes).pos = 0 from rfl, Nat.zero_add] at hgood
  rw [show (ImageFile.start a bytes).pos = 0 from rfl, List.drop_zero] at hread
  simp only [hf, not_true, if_false, hread, tag_take, pcType_take, hopens, true_and]
  by_cases hpldm : htobe32 (tag (content a bytes)) = pldmMagic
  · rw [if_pos hpldm, if_pos hpldm]
    exact verifyPldm_iff hbytes hreadable hgood
  · rw [if_neg hpldm, if_neg hpldm]
    unfold PfrVerified
    by_cases htag : tag (content a bytes) = fwupdateImageIdentifier
    swap
    · simp [htag]
    by_cases hmtd : a.mtdUtil = some 0
    · cases hpurpose : purposeString (pcType (content a bytes)) with
      | none => simp [htag]
      | some purpose =>
        simp only [htag, hmtd, ne_eq, not_true, if_false, Option.some_inj, true_and]
        constructor
        · rintro rfl
          exact ⟨rfl, rfl⟩
        · rintro ⟨rfl, hversion⟩
          rw [← hversion]
    · cases hpurpose : purposeString (pcType (content a bytes)) with
      | none => simp [htag]
      | some purpose => simp [htag, hmtd]

/-! ### Ids -/

/-- The id after `k + 1` numbers, from the `i`-th on, have been appended. -/
def appended (rand : ℕ → ℕ) : ℕ → String → ℕ → String
  | i, id, 0 => id ++ "_" ++ Nat.repr (rand i)
  | i, id, k + 1 => appended rand (i + 1) (id ++ "_" ++ Nat.repr (rand i)) k

/-- The first of the ids that no version has. -/
def FirstFree (versions : String → Option (Version Purpose)) (rand : ℕ → ℕ) (retry i : ℕ)
    (id new : String) : Prop :=
  ∃ k ≤ retry, appended rand i id k = new ∧ versions new = none ∧
    ∀ j < k, (versions (appended rand i id j)).isSome

theorem chooseId_iff (versions : String → Option (Version Purpose)) (rand : ℕ → ℕ) (retry i : ℕ)
    (id new : String) :
    chooseId versions rand retry i id = new ∧ versions new = none ↔
      FirstFree versions rand retry i id new := by
  induction retry generalizing i id with
  | zero =>
    unfold FirstFree chooseId
    constructor
    · rintro ⟨hnew, hfree⟩
      exact ⟨0, Nat.le_refl 0, hnew, hfree, fun j hj => absurd hj (Nat.not_lt_zero j)⟩
    · rintro ⟨k, hk, hnew, hfree, -⟩
      obtain rfl : k = 0 := by omega
      exact ⟨hnew, hfree⟩
  | succ retry ih =>
    unfold chooseId
    dsimp only
    by_cases htaken : (versions (id ++ "_" ++ Nat.repr (rand i))).isSome = true
    · rw [if_pos htaken, ih]
      constructor
      · rintro ⟨k, hk, hnew, hfree, hbefore⟩
        refine ⟨k + 1, by omega, hnew, hfree, fun j hj => ?_⟩
        cases j with
        | zero => exact htaken
        | succ j => exact hbefore j (by omega)
      · rintro ⟨k, hk, hnew, hfree, hbefore⟩
        cases k with
        | zero =>
          rw [← hnew, appended] at hfree
          rw [hfree] at htaken
          cases htaken
        | succ k => exact ⟨k, by omega, hnew, hfree, fun j hj => hbefore (j + 1) (by omega)⟩
    · rw [if_neg htaken]
      constructor
      · rintro ⟨hnew, hfree⟩
        exact ⟨0, Nat.zero_le _, hnew, hfree, fun j hj => absurd hj (Nat.not_lt_zero j)⟩
      · rintro ⟨k, hk, hnew, hfree, hbefore⟩
        cases k with
        | zero => exact ⟨hnew, hfree⟩
        | succ k => exact absurd (hbefore 0 (Nat.succ_pos k)) htaken

/-! ### The outcome -/

section Outcome

variable (s : Software Purpose) (m : Manager Purpose) (a : Answers)

/-- The file gets into the directory of `id`, or the same image is there already. -/
def Placed (bytes : List UInt8) (id : String) : Prop :=
  (a.rename = true ∧ (m.dirs id = true ∨ a.createDirectory = true)) ∨ m.images id = some bytes

/-- What has to hold of an image that is accepted. -/
def Registers (bytes : List UInt8) (v : Verification) : Prop :=
  v.version ≠ [] ∧ a.makeVersion = true ∧
    ∃ id, FirstFree m.versions a.rand 3 0 (s.getId v.version) id ∧ Placed m a bytes id

/-- Nothing throws; no update runs; a file that is rejected can be removed; and one that is accepted
has a version, a free id, and can be moved and registered. -/
def Clean : Prop :=
  a.exists_ = true ∧ ∀ bytes ∈ m.uploaded, a.fwupdScriptRunning = some false ∧ a.existsAgain = true ∧
    ((∀ v, ¬ Verified a bytes v) → a.removeAll = true) ∧
    ∀ v, Verified a bytes v → Registers s m a bytes v

variable {s m a}

theorem not_settled_throws (m' : Manager Purpose) : ¬ Settled s m (none, m') := by
  rintro (⟨hrc, -⟩ | ⟨⟨rc, -, hrc⟩, -⟩)
  · cases hrc
  · cases hrc

theorem settled_fails_iff (m' : Manager Purpose) :
    Settled s m (some (-1), m') ↔ m'.versions = m.versions ∧ m'.uploaded = none := by
  constructor
  · rintro (⟨hrc, -⟩ | ⟨-, hkept⟩)
    · cases hrc
    · exact hkept
  · intro hkept
    exact .inr ⟨⟨-1, by decide, rfl⟩, hkept⟩

/-- A version is registered under a new id. -/
theorem settled_succeeds_iff {m' : Manager Purpose} {id : String} {v : Version Purpose}
    (hfree : m.versions id = none) (hpath : v.filePath = s.imgUploadDir ++ "/" ++ id)
    (hversions : m'.versions = m.versions) (huploaded : m.uploaded.isSome) :
    Settled s m (some 0, m'.insert id v) ↔ m'.images id = m.uploaded := by
  have hinsert : (m'.insert id v).versions = Function.update m.versions id (some v) := by
    rw [← hversions]
    rfl
  constructor
  · rintro (⟨-, id', v', hfree', hversions', -, -, himage⟩ | ⟨⟨rc, hrc, heq⟩, -⟩)
    · rw [hinsert] at hversions'
      have hid : id' = id := by
        by_contra hne
        have := congrFun hversions' id'
        rw [Function.update_of_ne hne, Function.update_self, hfree'] at this
        cases this
      rw [hid] at himage
      exact himage
    · exact absurd (Option.some.inj heq).symm hrc
  · intro himage
    exact .inl ⟨rfl, id, v, hfree, hinsert, hpath, huploaded, himage⟩

/-- What the moving of the file leaves. -/
theorem moved_versions (id : String) (created renamed : Bool) :
    ((m.createDirectory id created).rename id renamed).versions = m.versions := by
  unfold Manager.rename Manager.createDirectory
  split <;> split <;> rfl

theorem moved_images_iff {bytes : List UInt8} (id : String) (huploaded : m.uploaded = some bytes) :
    ((m.createDirectory id a.createDirectory).rename id a.rename).images id = m.uploaded ↔
      Placed m a bytes id := by
  have hdirs : (m.createDirectory id a.createDirectory).dirs id = true ↔
      m.dirs id = true ∨ a.createDirectory = true := by
    unfold Manager.createDirectory
    by_cases hcreated : a.createDirectory = true
    · simp [hcreated]
    · simp [hcreated]
  have himages : (m.createDirectory id a.createDirectory).images = m.images := by
    unfold Manager.createDirectory
    split <;> rfl
  have hkept : (m.createDirectory id a.createDirectory).uploaded = m.uploaded := by
    unfold Manager.createDirectory
    split <;> rfl
  unfold Manager.rename Placed
  rw [← hdirs]
  by_cases hrename : a.rename = true ∧ (m.createDirectory id a.createDirectory).dirs id = true
  · rw [if_pos hrename]
    simp [hrename.1, hrename.2, hkept]
  · rw [if_neg hrename, himages, huploaded]
    exact (or_iff_right hrename).symm

theorem accepted_iff {bytes : List UInt8} (huploaded : m.uploaded = some bytes)
    (hexists : a.exists_ = true) (hfwupd : a.fwupdScriptRunning = some false)
    (hagain : a.existsAgain = true) {v : Verification} (hv : verifyFile a bytes = some v) :
    Settled s m (processImage s m a) ↔ Registers s m a bytes v := by
  have hverify : verifyImage a (some bytes) = some (some v) := by
    simp [verifyImage, hagain, hv]
  have hsome : m.uploaded.isSome := by rw [huploaded]; rfl
  unfold processImage Registers
  simp only [hexists, not_true, if_false, hfwupd, huploaded, hverify, Option.isNone_some,
    Bool.false_eq_true, List.isEmpty_iff]
  by_cases hempty : v.version = []
  · rw [if_pos hempty, settled_fails_iff, huploaded]
    simp [hempty]
  rw [if_neg hempty]
  have hchoose := chooseId_iff m.versions a.rand 3 0 (s.getId v.version)
  generalize chooseId m.versions a.rand 3 0 (s.getId v.version) = id at hchoose ⊢
  by_cases htaken : (m.versions id).isSome = true
  · have hnone : ∀ new, ¬ FirstFree m.versions a.rand 3 0 (s.getId v.version) new := by
      intro new hnew
      obtain ⟨rfl, hfree⟩ := (hchoose new).mpr hnew
      rw [hfree] at htaken
      cases htaken
    rw [if_pos htaken, settled_fails_iff, huploaded]
    simp [hnone]
  have hfree : m.versions id = none := by simpa using htaken
  rw [if_neg htaken]
  by_cases hmake : a.makeVersion = true
  swap
  · simp [hmake, not_settled_throws]
  rw [if_neg (not_not.mpr hmake),
    settled_succeeds_iff hfree rfl (moved_versions id a.createDirectory a.rename) hsome,
    moved_images_iff id huploaded]
  constructor
  · intro hplaced
    exact ⟨hempty, hmake, id, (hchoose id).mp ⟨rfl, hfree⟩, hplaced⟩
  · rintro ⟨-, -, new, hnew, hplaced⟩
    obtain ⟨rfl, -⟩ := (hchoose new).mpr hnew
    exact hplaced

theorem rejected_iff {bytes : List UInt8} (huploaded : m.uploaded = some bytes)
    (hexists : a.exists_ = true) (hfwupd : a.fwupdScriptRunning = some false)
    (hagain : a.existsAgain = true) (hv : verifyFile a bytes = none) :
    Settled s m (processImage s m a) ↔ a.removeAll = true := by
  have hverify : verifyImage a (some bytes) = some none := by
    simp [verifyImage, hagain, hv]
  unfold processImage
  simp only [hexists, not_true, if_false, hfwupd, huploaded, hverify, Option.isNone_some,
    Bool.false_eq_true]
  by_cases hremove : a.removeAll = true
  · rw [if_pos hremove, settled_fails_iff]
    simp [hremove]
  · rw [if_neg hremove]
    simp [hremove, not_settled_throws]

end Outcome

/-- An upload settles exactly under these conditions. -/
theorem processImage_settled_iff (s : Software Purpose) (m : Manager Purpose) (a : Answers) :
    Settled s m (processImage s m a) ↔ Clean s m a := by
  unfold Clean
  by_cases hexists : a.exists_ = true
  swap
  · simp [processImage, hexists, not_settled_throws]
  cases huploaded : m.uploaded with
  | none => simp [processImage, hexists, huploaded, settled_fails_iff]
  | some bytes =>
    simp only [hexists, Option.mem_some_iff, forall_eq', true_and]
    cases hfwupd : a.fwupdScriptRunning with
    | none => simp [processImage, hexists, huploaded, hfwupd, not_settled_throws]
    | some running =>
      cases running with
      | true => simp [processImage, hexists, huploaded, hfwupd, settled_fails_iff]
      | false =>
        by_cases hagain : a.existsAgain = true
        swap
        · simp [processImage, hexists, huploaded, hfwupd, verifyImage, hagain, not_settled_throws]
        simp only [hagain, true_and, ← verifyFile_iff]
        cases hv : verifyFile a bytes with
        | none =>
          rw [rejected_iff huploaded hexists hfwupd hagain hv]
          simp
        | some v =>
          rw [accepted_iff huploaded hexists hfwupd hagain hv]
          simp

/-- Everything works but the renaming of the file. -/
def renameFails : Answers where
  exists_ := true
  existsAgain := true
  fwupdScriptRunning := some false
  opens := true
  readable := 4
  mtdUtil := some 0
  removeAll := true
  rand := fun _ => 0
  createDirectory := true
  rename := false
  makeVersion := true

/-- The version of an image that could not be moved is registered. -/
theorem not_settled :
    ¬ ∀ (s : Software Unit) (m : Manager Unit) (a : Answers), Settled s m (processImage s m a) := by
  intro h
  let s : Software Unit := ⟨"/tmp/images", "/xyz/openbmc_project/software", fun _ => "id",
    fun _ => some (), ()⟩
  let m : Manager Unit :=
    ⟨some [0x19, 0xFD, 0xEA, 0xB6], fun _ => false, fun _ => none, fun _ => none⟩
  have hrc : (processImage s m renameFails).1 = some 0 := by decide
  have himages : (processImage s m renameFails).2.images = fun _ => none := rfl
  rcases h s m renameFails with ⟨-, id, v, -, -, -, -, himage⟩ | ⟨⟨rc, hne, heq⟩, -⟩
  · rw [himages] at himage
    cases himage
  · rw [hrc] at heq
    exact hne (Option.some.inj heq).symm

end MetaCommon.PfrImage
