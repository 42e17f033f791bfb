import MetaCommon.PfrImage.Outcomes

/-!
# PLDM packages

The PLDM branch looks at the identifier and reads the version string that the header announces. It
comes after the read of a whole block 0, which fails on a file that is shorter, and the failed
stream is not cleared. Every other image that is accepted has passed `mtd-util`.
-/

namespace MetaCommon.PfrImage

variable {Purpose : Type}

/-! ### What is expected -/

/-- The identifier, and as many bytes as the header and its version string have. -/
def IsPackage (content : List UInt8) : Prop :=
  content.take headerIdLen = pldmPkgHeaderId ∧
    sizeofPldmPkgHeader + (content.getD 35 0).toNat ≤ content.length

/-- The version string after the header, of the length in its last byte. -/
def packageVersion (content : List UInt8) : List UInt8 :=
  (content.drop sizeofPldmPkgHeader).take (content.getD 35 0).toNat

def pldmPurpose : String := verPurpose ++ "PLDM"

/-- A file is accepted as a PLDM package exactly if it is one, with its version; any other that is
accepted has been authenticated, by the verification and in the end by the upload. -/
structure PackagesOnly (s : Software Purpose) (m : Manager Purpose) (a : Answers)
    (bytes : List UInt8) : Prop where
  package : ∀ v, verifyFile a bytes = some v ∧ v.purposeString = pldmPurpose ↔
    a.opens = true ∧ IsPackage (content a bytes) ∧
      v = ⟨packageVersion (content a bytes), pldmPurpose⟩
  verified : ∀ v, verifyFile a bytes = some v → v.purposeString ≠ pldmPurpose → a.mtdUtil = some 0
  uploaded : m.uploaded = some bytes → (processImage s m a).1 = some 0 →
    (∃ v, verifyFile a bytes = some v ∧ v.purposeString = pldmPurpose) ∨ a.mtdUtil = some 0

/-! ### The two branches -/

/-- A package has the magic number that leads to the PLDM branch. -/
theorem IsPackage.magic {content : List UInt8} (h : IsPackage content) :
    htobe32 (tag content) = pldmMagic := by
  have htag : tag (content.take headerIdLen) = tag content := by
    unfold tag
    rw [getD_take, getD_take, getD_take, getD_take] <;> decide
  rw [← htag, h.1]
  decide

/-- No type of a PFR image has the purpose of a PLDM package. -/
theorem ne_pldmPurpose_of_purposeString {imgType : UInt8} {purpose : String}
    (h : purposeString imgType = some purpose) : purpose ≠ pldmPurpose := by
  unfold purposeString at h
  split_ifs at h
  all_goals
    cases h
    decide

theorem verifyFile_pldm_iff (a : Answers) (bytes : List UInt8) (v : Verification) :
    verifyFile a bytes = some v ∧ v.purposeString = pldmPurpose ↔
      a.opens = true ∧ readBufferSize ≤ (content a bytes).length ∧ IsPackage (content a bytes) ∧
        v = ⟨packageVersion (content a bytes), pldmPurpose⟩ := by
  rw [verifyFile_iff]
  unfold Verified
  constructor
  · rintro ⟨⟨hopens, hv⟩, hpurpose⟩
    split_ifs at hv with hmagic
    · obtain ⟨hlong, hid, hfits, rfl⟩ := hv
      exact ⟨hopens, hlong, ⟨hid, hfits⟩, rfl⟩
    · exact absurd hpurpose (ne_pldmPurpose_of_purposeString hv.2.2.1)
  · rintro ⟨hopens, hlong, hpackage, rfl⟩
    rw [if_pos hpackage.magic]
    exact ⟨⟨hopens, hlong, hpackage.1, hpackage.2, rfl⟩, rfl⟩

/-- The PFR branch accepts only what `mtd-util` does. -/
theorem mtdUtil_of_verifyFile {a : Answers} {bytes : List UInt8} {v : Verification}
    (hv : verifyFile a bytes = some v) (hpurpose : v.purposeString ≠ pldmPurpose) :
    a.mtdUtil = some 0 := by
  obtain ⟨-, hv⟩ := (verifyFile_iff a bytes v).mp hv
  split_ifs at hv
  · obtain ⟨-, -, -, rfl⟩ := hv
    exact absurd rfl hpurpose
  · exact hv.2.1

/-- An upload succeeds only with a file that has been verified. -/
theorem verifyFile_of_processImage {s : Software Purpose} {m : Manager Purpose} {a : Answers}
    {bytes : List UInt8} (huploaded : m.uploaded = some bytes)
    (h : (processImage s m a).1 = some 0) : ∃ v, verifyFile a bytes = some v := by
  cases hv : verifyFile a bytes with
  | some v => exact ⟨v, rfl⟩
  | none =>
    exfalso
    by_cases hexists : a.exists_ = true
    swap
    · simp [processImage, hexists] at h
    cases hfwupd : a.fwupdScriptRunning with
    | none => simp [processImage, hexists, huploaded, hfwupd] at h
    | some running =>
      cases running with
      | true => simp [processImage, hexists, huploaded, hfwupd] at h
      | false =>
        by_cases hagain : a.existsAgain = true
        swap
        · simp [processImage, hexists, huploaded, hfwupd, verifyImage, hagain] at h
        by_cases hremove : a.removeAll = true <;>
          simp [processImage, hexists, huploaded, hfwupd, verifyImage, hagain, hv, hremove] at h

/-- Only packages that are shorter than a block 0 are turned away wrongly. -/
theorem packagesOnly_iff (s : Software Purpose) (m : Manager Purpose) (a : Answers)
    (bytes : List UInt8) :
    PackagesOnly s m a bytes ↔ (a.opens = true → IsPackage (content a bytes) →
      readBufferSize ≤ (content a bytes).length) := by
  constructor
  · intro h hopens hpackage
    have hv := (h.package _).mpr ⟨hopens, hpackage, rfl⟩
    exact ((verifyFile_pldm_iff a bytes _).mp hv).2.1
  · intro hlong
    refine ⟨fun v => ?_, fun v => mtdUtil_of_verifyFile, fun huploaded hrc => ?_⟩
    · rw [verifyFile_pldm_iff]
      constructor
      · rintro ⟨hopens, -, hpackage, hv⟩
        exact ⟨hopens, hpackage, hv⟩
      · rintro ⟨hopens, hpackage, hv⟩
        exact ⟨hopens, hlong hopens hpackage, hpackage, hv⟩
    · obtain ⟨v, hv⟩ := verifyFile_of_processImage huploaded hrc
      by_cases hpurpose : v.purposeString = pldmPurpose
      · exact .inl ⟨v, hv, hpurpose⟩
      · exact .inr (mtdUtil_of_verifyFile hv hpurpose)

/-- A package of 37 bytes with the version string "A". -/
def smallPackage : List UInt8 := pldmPkgHeaderId ++ List.replicate 19 0 ++ [1, 0x41]

/-- Everything works, and the package is turned away. -/
theorem smallPackage_rejected :
    ¬ ∀ (s : Software Unit) (m : Manager Unit),
      PackagesOnly s m { renameFails with readable := 37, rename := true } smallPackage := by
  intro h
  have hpackages := h ⟨"/tmp/images", "/xyz/openbmc_project/software", fun _ => "id",
    fun _ => some (), ()⟩ ⟨some smallPackage, fun _ => false, fun _ => none, fun _ => none⟩
  have hv := (hpackages.package _).mpr ⟨rfl, ⟨by decide, by decide⟩, rfl⟩
  have hnone : verifyFile { renameFails with readable := 37, rename := true } smallPackage =
      none := by decide
  rw [hnone] at hv
  cases hv.1

end MetaCommon.PfrImage
