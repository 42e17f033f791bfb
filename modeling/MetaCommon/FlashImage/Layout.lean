import MetaCommon.Lib.Extents

/-!
# The layout of the flash image

`do_generate_auto` writes u-boot and the FIT image into a ROM of the size of the flash, and
`do_image_pfr_internal` adds the signed PFM and the signed capsule. The offsets and the limits are
set in three places. U-boot and the FIT image are compared with a limit, what is added later is not.
-/

namespace MetaCommon.FlashImage

open Extents

/-- `platform-conf` of the PFR manifest. -/
structure PlatformConf where
  pfmOffsetPage : ℕ
  rcImagePage : ℕ

/-- The variables that set the layout. `dtbFullFitImageOffsets` is `none` where the variable is
empty, and `flashUbootSplSize`, in KB, where `SPL_BINARY` is. -/
structure Vars where
  imageFstypes : List String
  pfrConfig : List String
  productGeneration : List String
  dtbFullFitImageOffsets : Option ℕ
  flashUbootSplSize : Option ℕ
  platformConf : Option PlatformConf

/-- `flashSize` and the offsets are in KB, the limits in bytes. -/
structure Layout where
  flashSize : ℕ
  fitSectorSize : ℕ
  ubootSecSize : ℕ
  flashRuntimeOffsets : List ℕ
deriving DecidableEq

def runtimeOffsets (dtbFullFitImageOffsets : List ℕ) : List ℕ :=
  dtbFullFitImageOffsets.map (· / 1024)

/-- In the last case no offset has been set when the runtime offsets are computed. -/
def layout (v : Vars) : Option Layout :=
  let ubootSecSize := 1024 * 1024
  if "intel-pfr" ∈ v.imageFstypes then
    if "pfr-256" ∈ v.pfrConfig then
      if "egs" ∈ v.productGeneration then
        some ⟨256 * 1024, 0x3500000, ubootSecSize, runtimeOffsets [0xb00000]⟩
      else some ⟨256 * 1024, 0x3480000, ubootSecSize, runtimeOffsets [0xb80000]⟩
    else
      match v.dtbFullFitImageOffsets with
      | some newActiveOffset =>
        some ⟨128 * 1024, 0x26A4D9E, ubootSecSize, runtimeOffsets [newActiveOffset]⟩
      | none => some ⟨128 * 1024, 0x1f00000, ubootSecSize, runtimeOffsets [0xb00000]⟩
  else if "egs" ∈ v.productGeneration ∨ "bhs" ∈ v.productGeneration then
    some ⟨64 * 1024, 0x3300000, ubootSecSize, runtimeOffsets [0x100000]⟩
  else none

def pfmOffsetPage (v : Vars) : ℕ :=
  match v.platformConf with
  | some platformConf => platformConf.pfmOffsetPage
  | none => 512

def rcImagePage (v : Vars) : ℕ :=
  match v.platformConf with
  | some platformConf => platformConf.rcImagePage
  | none => if "pfr-256" ∈ v.pfrConfig then 75776 else 43008

/-- The files that are written; `imageDst` is what there is of `image_dst` before. -/
structure Files where
  ubootSpl : List UInt8
  uboot : List UInt8
  imageDst : List UInt8
  fullImage : List UInt8
  pfmSigned : List UInt8
  signedCap : List UInt8

/-! ### The build -/

/-- `dd bs=1k conv=notrunc` -/
def dd (seek : ℕ) (input output : List UInt8) : List UInt8 := overwrite 0 output (seek * 1024) input

def mkNorImage (imageSizeKb : ℕ) : List UInt8 := List.replicate (imageSizeKb * 1024) 0xff

/-- The file named by `FLASH_UBOOT_IMAGE_NAME`. -/
def ubootImage (v : Vars) (f : Files) : List UInt8 :=
  match v.flashUbootSplSize with
  | some ubootOffset => dd ubootOffset f.uboot (dd 0 f.ubootSpl f.imageDst)
  | none => f.uboot

def doGenerateAuto (l : Layout) (v : Vars) (f : Files) : Option (List UInt8) :=
  let mtd := dd 0 (ubootImage v f) (mkNorImage l.flashSize)
  if l.ubootSecSize > (ubootImage v f).length then
    if l.fitSectorSize > f.fullImage.length then
      some (l.flashRuntimeOffsets.foldl (fun mtd offset => dd offset f.fullImage mtd) mtd)
    else none
  else none

/-- `pfrImage` is the ROM that `pfr_image.py` makes of the image. -/
def doImagePfrInternal (pfrImage : List UInt8 → List UInt8) (v : Vars) (f : Files)
    (mtd : List UInt8) : List UInt8 :=
  dd (rcImagePage v) f.signedCap (dd (pfmOffsetPage v) f.pfmSigned (pfrImage mtd))

/-- The ROM, if the build succeeds. -/
def buildRom (pfrImage : List UInt8 → List UInt8) (v : Vars) (f : Files) : Option (List UInt8) :=
  if "mtd-auto" ∈ v.imageFstypes then do
    let l ← layout v
    let mtd ← doGenerateAuto l v f
    if "intel-pfr" ∈ v.imageFstypes then some (doImagePfrInternal pfrImage v f mtd) else some mtd
  else none

/-! ### What is written where -/

def ubootBlocks (v : Vars) (f : Files) : List (ℕ × List UInt8) :=
  match v.flashUbootSplSize with
  | some ubootOffset => [(0, f.ubootSpl), (ubootOffset * 1024, f.uboot)]
  | none => [(0, f.uboot)]

def laterBlocks (l : Layout) (v : Vars) (f : Files) : List (ℕ × List UInt8) :=
  l.flashRuntimeOffsets.map (fun offset => (offset * 1024, f.fullImage)) ++
    if "intel-pfr" ∈ v.imageFstypes then
      [(pfmOffsetPage v * 1024, f.pfmSigned), (rcImagePage v * 1024, f.signedCap)]
    else []

def romBlocks (l : Layout) (v : Vars) (f : Files) : List (ℕ × List UInt8) :=
  (0, ubootImage v f) :: laterBlocks l v f

/-- What is written into the ROM is apart and inside the flash; the ROM has the size of the flash,
and each component is in it at its offset. -/
structure RomRight (l : Layout) (v : Vars) (f : Files) (rom : List UInt8) : Prop where
  apart : ((romBlocks l v f).map span).Pairwise Apart
  ubootApart : ((ubootBlocks v f).map span).Pairwise Apart
  inside : ∀ x ∈ (romBlocks l v f).map span, Inside (l.flashSize * 1024) x
  size : rom.length = l.flashSize * 1024
  intact : ∀ x ∈ ubootBlocks v f ++ laterBlocks l v f, (rom.drop x.1).take x.2.length = x.2

def BuildsRight (pfrImage : List UInt8 → List UInt8) (v : Vars) (f : Files) : Prop :=
  ∀ l rom, layout v = some l → buildRom pfrImage v f = some rom → RomRight l v f rom

/-! ### The sizes that fit -/

def ubootImageSize (v : Vars) (f : Files) : ℕ :=
  match v.flashUbootSplSize with
  | some ubootOffset =>
    grow (grow f.imageDst.length (0, f.ubootSpl.length)) (ubootOffset * 1024, f.uboot.length)
  | none => f.uboot.length

/-- `fit_sector_size` of the configurations that have a layout. -/
def fitLimit (v : Vars) : Option ℕ :=
  if "intel-pfr" ∈ v.imageFstypes then
    if "pfr-256" ∈ v.pfrConfig then
      if "egs" ∈ v.productGeneration then some 55574528 else some 55050240
    else if v.dtbFullFitImageOffsets = none then some 32505856 else some 40521118
  else if "egs" ∈ v.productGeneration ∨ "bhs" ∈ v.productGeneration then some 53477376
  else none

/-- The build gets as far as the ROM. -/
structure Passes (v : Vars) (f : Files) : Prop where
  mtdAuto : "mtd-auto" ∈ v.imageFstypes
  uboot : ubootImageSize v f < 1024 * 1024
  fullImage : ∃ limit ∈ fitLimit v, f.fullImage.length < limit

/-- The SPL ends before u-boot. -/
def SplFits (v : Vars) (f : Files) : Prop :=
  ∀ ubootOffset, v.flashUbootSplSize = some ubootOffset →
    f.uboot = [] ∨ f.ubootSpl.length ≤ ubootOffset * 1024

/-- Neither `platform-conf` nor `DTB_FULL_FIT_IMAGE_OFFSETS` moves a part of the PFR image. -/
structure DefaultOffsets (v : Vars) : Prop where
  platformConf : v.platformConf = none
  dtb : "pfr-256" ∈ v.pfrConfig ∨ v.dtbFullFitImageOffsets = none

/-- How many KB there are from the default offset of the PFM, 512 KB, to what is written next. -/
def pfmRoom (v : Vars) (f : Files) : ℕ :=
  if f.fullImage ≠ [] then
    if "pfr-256" ∈ v.pfrConfig ∧ "egs" ∉ v.productGeneration then 11264 else 10752
  else if f.signedCap ≠ [] then
    if "pfr-256" ∈ v.pfrConfig then 75264 else 42496
  else
    if "pfr-256" ∈ v.pfrConfig then 261632 else 130560

/-- How many KB of the flash there are behind the default offset of the capsule. -/
def capRoom (v : Vars) : ℕ := if "pfr-256" ∈ v.pfrConfig then 186368 else 88064

structure DefaultFits (v : Vars) (f : Files) : Prop where
  uboot : f.pfmSigned = [] ∨ ubootImageSize v f ≤ 512 * 1024
  pfm : f.pfmSigned.length ≤ pfmRoom v f * 1024
  cap : f.signedCap.length ≤ capRoom v * 1024

/-- In KB, the size of the flash and where the FIT image, the PFM and the capsule begin. -/
structure Places where
  flash : ℕ
  fit : ℕ
  pfm : ℕ
  cap : ℕ

def pfrPlaces (v : Vars) : Places where
  flash := if "pfr-256" ∈ v.pfrConfig then 262144 else 131072
  fit :=
    if "pfr-256" ∈ v.pfrConfig then if "egs" ∈ v.productGeneration then 11264 else 11776
    else v.dtbFullFitImageOffsets.elim 11264 (· / 1024)
  pfm := v.platformConf.elim 512 (·.pfmOffsetPage)
  cap := v.platformConf.elim (if "pfr-256" ∈ v.pfrConfig then 75776 else 43008) (·.rcImagePage)

/-- With other offsets: `u`, `n`, `m` and `c` are the sizes of the u-boot image, the FIT image, the
PFM and the capsule, of which the last three may come in any order. -/
structure PlacedFits (p : Places) (u n m c : ℕ) : Prop where
  ubootFit : n = 0 ∨ u ≤ p.fit * 1024
  ubootPfm : m = 0 ∨ u ≤ p.pfm * 1024
  ubootCap : c = 0 ∨ u ≤ p.cap * 1024
  fitPfm : n = 0 ∨ m = 0 ∨ p.fit * 1024 + n ≤ p.pfm * 1024 ∨ p.pfm * 1024 + m ≤ p.fit * 1024
  fitCap : n = 0 ∨ c = 0 ∨ p.fit * 1024 + n ≤ p.cap * 1024 ∨ p.cap * 1024 + c ≤ p.fit * 1024
  pfmCap : m = 0 ∨ c = 0 ∨ p.pfm * 1024 + m ≤ p.cap * 1024 ∨ p.cap * 1024 + c ≤ p.pfm * 1024
  fitEnd : n = 0 ∨ p.fit * 1024 + n ≤ p.flash * 1024
  pfmEnd : m = 0 ∨ p.pfm * 1024 + m ≤ p.flash * 1024
  capEnd : c = 0 ∨ p.cap * 1024 + c ≤ p.flash * 1024

/-- Without PFR the limits of the build are enough, up to that of the SPL. -/
structure SizesFit (v : Vars) (f : Files) : Prop where
  spl : SplFits v f
  default : "intel-pfr" ∈ v.imageFstypes → DefaultOffsets v → DefaultFits v f
  placed : "intel-pfr" ∈ v.imageFstypes → ¬ DefaultOffsets v →
    PlacedFits (pfrPlaces v) (ubootImageSize v f) f.fullImage.length f.pfmSigned.length
      f.signedCap.length

def romSpans (l : Layout) (v : Vars) (f : Files) : List Span :=
  (0, ubootImageSize v f) ::
    (l.flashRuntimeOffsets.map (fun offset => (offset * 1024, f.fullImage.length)) ++
      if "intel-pfr" ∈ v.imageFstypes then
        [(pfmOffsetPage v * 1024, f.pfmSigned.length), (rcImagePage v * 1024, f.signedCap.length)]
      else [])

/-- What is written into the flash, and before that into the image of u-boot, is apart and
inside. -/
structure Placed (l : Layout) (v : Vars) (f : Files) : Prop where
  apart : (romSpans l v f).Pairwise Apart
  inside : ∀ x ∈ romSpans l v f, Inside (l.flashSize * 1024) x
  spl : SplFits v f

section Layouts

variable {pfrImage : List UInt8 → List UInt8} {l : Layout} {v : Vars} {f : Files}
  {rom : List UInt8}

@[simp] theorem length_mkNorImage (kb : ℕ) : (mkNorImage kb).length = kb * 1024 :=
  List.length_replicate

theorem ubootImage_of_some {ubootOffset : ℕ} (h : v.flashUbootSplSize = some ubootOffset) :
    ubootImage v f = overwriteAll 0 f.imageDst (ubootBlocks v f) := by
  rw [ubootImage, ubootBlocks, h]
  rfl

theorem length_ubootImage : (ubootImage v f).length = ubootImageSize v f := by
  unfold ubootImage ubootImageSize
  split
  · rw [dd, length_overwrite, dd, length_overwrite, Nat.zero_mul]
  · rfl

theorem map_span_romBlocks : (romBlocks l v f).map span = romSpans l v f := by
  rw [romBlocks, romSpans, ← length_ubootImage, List.map_cons, laterBlocks, List.map_append,
    List.map_map]
  split <;> rfl

theorem doGenerateAuto_eq (l : Layout) (v : Vars) (f : Files) : doGenerateAuto l v f =
    if ubootImageSize v f < l.ubootSecSize ∧ f.fullImage.length < l.fitSectorSize then
      some (l.flashRuntimeOffsets.foldl (fun mtd offset => dd offset f.fullImage mtd)
        (dd 0 (ubootImage v f) (mkNorImage l.flashSize)))
    else none := by
  unfold doGenerateAuto
  rw [length_ubootImage]
  by_cases huboot : ubootImageSize v f < l.ubootSecSize
  · by_cases hfull : f.fullImage.length < l.fitSectorSize <;> simp [huboot, hfull]
  · simp [huboot]

/-- The dds of a build are those of its blocks, in their order. -/
theorem overwriteAll_romBlocks (output : List UInt8) (l : Layout) (v : Vars) (f : Files) :
    overwriteAll 0 output (romBlocks l v f) =
      let mtd := l.flashRuntimeOffsets.foldl (fun mtd offset => dd offset f.fullImage mtd)
        (dd 0 (ubootImage v f) output)
      if "intel-pfr" ∈ v.imageFstypes then doImagePfrInternal id v f mtd else mtd := by
  rw [romBlocks, laterBlocks, overwriteAll, List.foldl_cons, List.foldl_append, List.foldl_map]
  split <;> rfl

/-- With a script that leaves the image as it is, the ROM is the empty flash in which the blocks
have been written one after the other. -/
theorem buildRom_eq_some_iff (hcopy : ∀ mtd, pfrImage mtd = mtd) (hl : layout v = some l) :
    buildRom pfrImage v f = some rom ↔ ("mtd-auto" ∈ v.imageFstypes ∧
      ubootImageSize v f < l.ubootSecSize ∧ f.fullImage.length < l.fitSectorSize) ∧
      rom = overwriteAll 0 (mkNorImage l.flashSize) (romBlocks l v f) := by
  obtain rfl : pfrImage = id := funext hcopy
  unfold buildRom
  by_cases hmtd : "mtd-auto" ∈ v.imageFstypes
  · simp only [hmtd, hl, if_true, Option.bind_eq_bind, Option.bind_some, doGenerateAuto_eq,
      overwriteAll_romBlocks, true_and]
    by_cases hchecked :
        ubootImageSize v f < l.ubootSecSize ∧ f.fullImage.length < l.fitSectorSize
    · by_cases hpfr : "intel-pfr" ∈ v.imageFstypes <;> simp [hchecked, hpfr, eq_comm]
    · simp [hchecked]
  · simp [hmtd]

theorem pairwise_ubootBlocks_iff : ((ubootBlocks v f).map span).Pairwise Apart ↔
    SplFits v f := by
  unfold ubootBlocks SplFits
  cases v.flashUbootSplSize with
  | none => simp
  | some ubootOffset =>
    rw [List.map_cons, List.map_singleton, List.pairwise_pair, apart_iff]
    simp only [span_fst, span_snd, Option.some.injEq, forall_eq', ← List.length_eq_zero_iff]
    omega

/-- What the image of u-boot holds is in a ROM that begins with the image. -/
theorem take_drop_of_mem_ubootBlocks {x : ℕ × List UInt8}
    (hapart : ((ubootBlocks v f).map span).Pairwise Apart)
    (himage : rom.take (ubootImage v f).length = ubootImage v f) (hx : x ∈ ubootBlocks v f) :
    (rom.drop x.1).take x.2.length = x.2 := by
  cases hspl : v.flashUbootSplSize with
  | none =>
    have huboot : ubootImage v f = f.uboot := by rw [ubootImage, hspl]
    rw [ubootBlocks, hspl] at hx
    obtain rfl := List.mem_singleton.mp hx
    rwa [huboot] at himage
  | some ubootOffset =>
    rw [ubootImage_of_some hspl] at himage
    by_cases hnil : x.2 = []
    · rw [hnil, List.length_nil, List.take_zero]
    · have hend := end_le_length_overwriteAll 0 f.imageDst hx hnil
      have hread := take_drop_overwriteAll 0 f.imageDst hapart hx
      rwa [← himage, List.drop_take, List.take_take, Nat.min_eq_left (by omega)] at hread

theorem romRight_iff (hrom : rom = overwriteAll 0 (mkNorImage l.flashSize) (romBlocks l v f)) :
    RomRight l v f rom ↔ Placed l v f := by
  constructor
  · intro h
    exact ⟨map_span_romBlocks ▸ h.apart, map_span_romBlocks ▸ h.inside,
      pairwise_ubootBlocks_iff.mp h.ubootApart⟩
  · rintro ⟨hapart, hinside, hspl⟩
    rw [← map_span_romBlocks] at hapart hinside
    have huboot := pairwise_ubootBlocks_iff.mpr hspl
    have hintact : ∀ x ∈ romBlocks l v f, (rom.drop x.1).take x.2.length = x.2 := fun x hx => by
      rw [hrom]
      exact take_drop_overwriteAll 0 _ hapart hx
    have hsize : rom.length = l.flashSize * 1024 := by
      rw [hrom, length_overwriteAll, length_mkNorImage, foldl_grow_of_inside hinside]
    refine ⟨hapart, huboot, hinside, hsize, fun x hx => ?_⟩
    rcases List.mem_append.mp hx with hx | hx
    · exact take_drop_of_mem_ubootBlocks huboot (hintact _ List.mem_cons_self) hx
    · exact hintact x (List.mem_cons_of_mem _ hx)

/-! ### The layouts that are set -/

theorem layout_of_not_mem (hpfr : "intel-pfr" ∉ v.imageFstypes) : layout v =
    (fitLimit v).map fun limit => ⟨65536, limit, 1024 * 1024, [1024]⟩ := by
  rw [layout, fitLimit, if_neg hpfr, if_neg hpfr]
  split <;> rfl

theorem layout_of_mem (hpfr : "intel-pfr" ∈ v.imageFstypes) : layout v =
    (fitLimit v).map fun limit =>
      ⟨(pfrPlaces v).flash, limit, 1024 * 1024, [(pfrPlaces v).fit]⟩ := by
  rw [layout, fitLimit, if_pos hpfr, if_pos hpfr]
  unfold pfrPlaces
  by_cases h256 : "pfr-256" ∈ v.pfrConfig
  · by_cases hegs : "egs" ∈ v.productGeneration <;> simp [h256, hegs, runtimeOffsets]
  · cases v.dtbFullFitImageOffsets <;> simp [h256, runtimeOffsets]

/-- The checks of a build are those of its layout. -/
theorem passes_iff : Passes v f ↔ ∃ l, layout v = some l ∧ "mtd-auto" ∈ v.imageFstypes ∧
    ubootImageSize v f < l.ubootSecSize ∧ f.fullImage.length < l.fitSectorSize := by
  have hlayout : ∃ flashSize offsets, layout v =
      (fitLimit v).map fun limit => ⟨flashSize, limit, 1024 * 1024, offsets⟩ := by
    by_cases hpfr : "intel-pfr" ∈ v.imageFstypes
    · exact ⟨_, _, layout_of_mem hpfr⟩
    · exact ⟨_, _, layout_of_not_mem hpfr⟩
  obtain ⟨flashSize, offsets, hlayout⟩ := hlayout
  rw [hlayout]
  constructor
  · rintro ⟨hmtd, huboot, limit, hlimit, hfull⟩
    exact ⟨_, Option.map_eq_some_iff.mpr ⟨limit, hlimit, rfl⟩, hmtd, huboot, hfull⟩
  · rintro ⟨l, hl, hmtd, huboot, hfull⟩
    obtain ⟨limit, hlimit, rfl⟩ := Option.map_eq_some_iff.mp hl
    exact ⟨hmtd, huboot, limit, hlimit, hfull⟩

/-- Without PFR the FIT image begins where the limit of u-boot ends, and its own limit ends in the
flash. -/
theorem placed_iff_of_not_mem (hpfr : "intel-pfr" ∉ v.imageFstypes) (hl : layout v = some l)
    (hpasses : Passes v f) : Placed l v f ↔ SplFits v f := by
  rw [layout_of_not_mem hpfr] at hl
  obtain ⟨limit, hlimit, rfl⟩ := Option.map_eq_some_iff.mp hl
  obtain ⟨-, huboot, limit', hlimit', hfull⟩ := hpasses
  obtain rfl : limit' = limit := Option.some.inj (hlimit'.symm.trans hlimit)
  have hle : limit' ≤ 53477376 := by
    rw [fitLimit, if_neg hpfr] at hlimit
    split at hlimit
    · exact (Option.some.inj hlimit).ge
    · cases hlimit
  refine ⟨Placed.spl, fun hspl => ?_⟩
  have hspans : romSpans ⟨65536, limit', 1024 * 1024, [1024]⟩ v f =
      [(0, ubootImageSize v f), (1024 * 1024, f.fullImage.length)] := by
    rw [romSpans, if_neg hpfr]
    rfl
  refine ⟨?_, ?_, hspl⟩
  · rw [hspans, List.pairwise_pair, apart_iff]
    omega
  · rw [hspans]
    simp only [List.forall_mem_cons, List.not_mem_nil, false_imp_iff, implies_true, inside_iff,
      and_true]
    omega

theorem romSpans_of_mem (hpfr : "intel-pfr" ∈ v.imageFstypes) (hl : layout v = some l) :
    romSpans l v f = [(0, ubootImageSize v f), ((pfrPlaces v).fit * 1024, f.fullImage.length),
      ((pfrPlaces v).pfm * 1024, f.pfmSigned.length),
      ((pfrPlaces v).cap * 1024, f.signedCap.length)] ∧ l.flashSize = (pfrPlaces v).flash := by
  rw [layout_of_mem hpfr] at hl
  obtain ⟨limit, -, rfl⟩ := Option.map_eq_some_iff.mp hl
  have hpfm : pfmOffsetPage v = (pfrPlaces v).pfm := by
    unfold pfmOffsetPage pfrPlaces
    cases v.platformConf <;> rfl
  have hcap : rcImagePage v = (pfrPlaces v).cap := by
    unfold rcImagePage pfrPlaces
    cases v.platformConf <;> rfl
  rw [romSpans, if_pos hpfr, hpfm, hcap]
  exact ⟨rfl, rfl⟩

theorem placed_iff_of_mem (hpfr : "intel-pfr" ∈ v.imageFstypes) (hl : layout v = some l)
    (hpasses : Passes v f) : Placed l v f ↔ SplFits v f ∧ PlacedFits (pfrPlaces v)
      (ubootImageSize v f) f.fullImage.length f.pfmSigned.length f.signedCap.length := by
  obtain ⟨hspans, hflash⟩ := romSpans_of_mem (f := f) hpfr hl
  have huboot := hpasses.uboot
  have hsize : 131072 ≤ (pfrPlaces v).flash := by
    unfold pfrPlaces
    dsimp only
    split <;> omega
  have hiff : (romSpans l v f).Pairwise Apart ∧
      (∀ x ∈ romSpans l v f, Inside (l.flashSize * 1024) x) ↔ PlacedFits (pfrPlaces v)
        (ubootImageSize v f) f.fullImage.length f.pfmSigned.length f.signedCap.length := by
    rw [hspans, hflash]
    simp only [List.pairwise_cons, List.forall_mem_cons, List.not_mem_nil, false_imp_iff,
      implies_true, List.Pairwise.nil, apart_iff, inside_iff, and_true]
    constructor
    · intro h
      constructor <;> omega
    · rintro ⟨h₁, h₂, h₃, h₄, h₅, h₆, h₇, h₈, h₉⟩
      omega
  rw [← hiff]
  exact ⟨fun h => ⟨h.spl, h.apart, h.inside⟩, fun h => ⟨h.2.1, h.2.2, h.1⟩⟩

/-- The PFM, the FIT image and the capsule in this order, of which the FIT image fits. -/
theorem placedFits_iff_of_le {flash fit cap u n m c : ℕ} (hfit : 1024 ≤ fit) (hcap : fit ≤ cap)
    (hflash : cap ≤ flash) (hu : u < 1024 * 1024) (hn : n ≤ (cap - fit) * 1024) :
    PlacedFits ⟨flash, fit, 512, cap⟩ u n m c ↔ (m = 0 ∨ u ≤ 512 * 1024) ∧
      m ≤ (if n ≠ 0 then fit - 512 else if c ≠ 0 then cap - 512 else flash - 512) * 1024 ∧
      c ≤ (flash - cap) * 1024 := by
  constructor
  · rintro ⟨h₁, h₂, h₃, h₄, h₅, h₆, h₇, h₈, h₉⟩
    dsimp only at *
    split_ifs <;> omega
  · rintro ⟨huboot, hpfm, hcapsule⟩
    split_ifs at hpfm <;> constructor <;> dsimp only <;> omega

/-- With the default offsets the limit of the FIT image is enough. That of u-boot is not, which ends
where the PFM begins, and the PFM and the capsule have none. -/
theorem placedFits_iff_of_defaultOffsets (hpfr : "intel-pfr" ∈ v.imageFstypes)
    (hv : DefaultOffsets v) (hpasses : Passes v f) : PlacedFits (pfrPlaces v) (ubootImageSize v f)
      f.fullImage.length f.pfmSigned.length f.signedCap.length ↔ DefaultFits v f := by
  obtain ⟨-, huboot, limit, hlimit, hfull⟩ := hpasses
  have hdefault : DefaultFits v f ↔
      (f.pfmSigned.length = 0 ∨ ubootImageSize v f ≤ 512 * 1024) ∧
        f.pfmSigned.length ≤ pfmRoom v f * 1024 ∧ f.signedCap.length ≤ capRoom v * 1024 := by
    rw [List.length_eq_zero_iff]
    exact ⟨fun h => ⟨h.uboot, h.pfm, h.cap⟩, fun h => ⟨h.1, h.2.1, h.2.2⟩⟩
  have hroom : pfmRoom v f = if f.fullImage.length ≠ 0 then
      if "pfr-256" ∈ v.pfrConfig ∧ "egs" ∉ v.productGeneration then 11264 else 10752
    else if f.signedCap.length ≠ 0 then if "pfr-256" ∈ v.pfrConfig then 75264 else 42496
    else if "pfr-256" ∈ v.pfrConfig then 261632 else 130560 := by
    simp only [pfmRoom, ne_eq, List.length_eq_zero_iff]
  rw [hdefault, hroom, capRoom, pfrPlaces, hv.platformConf]
  rw [fitLimit, if_pos hpfr] at hlimit
  by_cases h256 : "pfr-256" ∈ v.pfrConfig
  · by_cases hegs : "egs" ∈ v.productGeneration
    · simp only [h256, hegs, if_true, Option.mem_some_iff] at hlimit
      simp only [h256, hegs, if_true, not_true, and_false, if_false, Option.elim_none]
      exact placedFits_iff_of_le (by omega) (by omega) (by omega) huboot (by omega)
    · simp only [h256, hegs, if_true, if_false, Option.mem_some_iff] at hlimit
      simp only [h256, hegs, if_true, not_false_eq_true, and_self, if_false, Option.elim_none]
      exact placedFits_iff_of_le (by omega) (by omega) (by omega) huboot (by omega)
  · have hdtb := hv.dtb.resolve_left h256
    simp only [h256, hdtb, if_true, if_false, Option.mem_some_iff] at hlimit
    simp only [h256, hdtb, false_and, if_false, Option.elim_none]
    exact placedFits_iff_of_le (by omega) (by omega) (by omega) huboot (by omega)

/-! ### The builds that are right -/

theorem placed_iff_sizesFit (hl : layout v = some l) (hpasses : Passes v f) :
    Placed l v f ↔ SizesFit v f := by
  by_cases hpfr : "intel-pfr" ∈ v.imageFstypes
  · rw [placed_iff_of_mem hpfr hl hpasses]
    by_cases hv : DefaultOffsets v
    · rw [placedFits_iff_of_defaultOffsets hpfr hv hpasses]
      exact ⟨fun h => ⟨h.1, fun _ _ => h.2, fun _ hnot => absurd hv hnot⟩,
        fun h => ⟨h.spl, h.default hpfr hv⟩⟩
    · exact ⟨fun h => ⟨h.1, fun _ hdefault => absurd hdefault hv, fun _ _ => h.2⟩,
        fun h => ⟨h.spl, h.placed hpfr hv⟩⟩
  · rw [placed_iff_of_not_mem hpfr hl hpasses]
    exact ⟨fun h => ⟨h, fun hmem => absurd hmem hpfr, fun hmem => absurd hmem hpfr⟩,
      SizesFit.spl⟩

/-- The ROM of every build that succeeds is right, if and only if the sizes that pass the checks
fit. -/
theorem buildsRight_iff (hcopy : ∀ mtd, pfrImage mtd = mtd) (v : Vars) (f : Files) :
    BuildsRight pfrImage v f ↔ (Passes v f → SizesFit v f) := by
  constructor
  · intro h hpasses
    obtain ⟨l, hl, hchecks⟩ := passes_iff.mp hpasses
    have hbuild := (buildRom_eq_some_iff hcopy hl).mpr ⟨hchecks, rfl⟩
    exact (placed_iff_sizesFit hl hpasses).mp ((romRight_iff rfl).mp (h l _ hl hbuild))
  · intro h l rom hl hbuild
    obtain ⟨hchecks, hrom⟩ := (buildRom_eq_some_iff hcopy hl).mp hbuild
    have hpasses := passes_iff.mpr ⟨l, hl, hchecks⟩
    exact (romRight_iff hrom).mpr ((placed_iff_sizesFit hl hpasses).mpr (h hpasses))

def pfr256Vars : Vars := ⟨["mtd-auto", "intel-pfr"], ["pfr-256"], ["egs"], none, none, none⟩

/-- U-boot has as many KB, and each of the other files a byte. -/
def ubootOf (kb : ℕ) : Files := ⟨[], List.replicate (kb * 1024) 0, [], [1], [2], [3]⟩

theorem ubootImageSize_ubootOf (kb : ℕ) : ubootImageSize pfr256Vars (ubootOf kb) = kb * 1024 :=
  List.length_replicate

/-- U-boot ends where the PFM begins. -/
theorem buildsRight_pfr256 : BuildsRight id pfr256Vars (ubootOf 512) := by
  refine (buildsRight_iff (fun _ => rfl) _ _).mpr fun _ => ?_
  refine ⟨nofun, fun _ _ => ⟨.inr ?_, by decide, by decide⟩, fun _ hv => ?_⟩
  · rw [ubootImageSize_ubootOf]
  · exact absurd ⟨rfl, .inl (by decide)⟩ hv

/-- The PFM is written into u-boot. -/
theorem not_buildsRight_largeUboot : ¬ BuildsRight id pfr256Vars (ubootOf 600) := by
  intro h
  have hl : layout pfr256Vars = some ⟨256 * 1024, 0x3500000, 1024 * 1024, [11264]⟩ := by decide
  have hchecks : "mtd-auto" ∈ pfr256Vars.imageFstypes ∧
      ubootImageSize pfr256Vars (ubootOf 600) < 1024 * 1024 ∧
      (ubootOf 600).fullImage.length < 0x3500000 := by
    rw [ubootImageSize_ubootOf]
    exact ⟨by decide, by decide, by decide⟩
  have hbuild := (buildRom_eq_some_iff (fun _ => rfl) hl).mpr ⟨hchecks, rfl⟩
  have hplaced := (romRight_iff rfl).mp (h _ _ hl hbuild)
  have hfits := (placed_iff_sizesFit hl (passes_iff.mpr ⟨_, hl, hchecks⟩)).mp hplaced
  rcases (hfits.default (by decide) ⟨rfl, .inl (by decide)⟩).uboot with hpfm | huboot
  · exact absurd hpfm (by decide)
  · rw [ubootImageSize_ubootOf] at huboot
    exact absurd huboot (by decide)

end Layouts

end MetaCommon.FlashImage
