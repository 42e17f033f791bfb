import MetaCommon.Fit.Format
import MetaCommon.FullFitimage.Bootable

/-!
# From the image source to the check of the boot loader

mkimage compiles the source with dtc and adds properties to it, but no nodes. Of the assembled FIT
that boots, U-Boot's format check can only refuse the names of the device trees.
-/

namespace MetaCommon.FullFitimage

open Forest
open Fit (Fdt Reads SiblingsPlain NoUnitAddress)

/-- From the offset on, libfdt finds the nodes of the forest. -/
inductive ShowsNodes (fdt : Fdt) : ℤ → Its → Prop where
  | nil {node : ℤ} (h : node < 0) : ShowsNodes fdt node .nil
  | leaf {node : ℤ} {p : Property} {rest : Its} (h : ShowsNodes fdt node rest) :
      ShowsNodes fdt node (.leaf p rest)
  | node {node : ℤ} {name : String} {children rest : Its} (hpos : 0 ≤ node)
      (hname : fdt.getName node = some name)
      (hchildren : ShowsNodes fdt (fdt.firstSubnode node) children)
      (hrest : ShowsNodes fdt (fdt.nextSubnode node) rest) :
      ShowsNodes fdt node (.node name children rest)

/-- A blob that holds the nodes of a source with the root `/`, whose name libfdt gives as empty, and
at least the properties of the root. -/
structure Compiled (fdt : Fdt) (f : Its) : Prop where
  documented : fdt.Documented
  header : fdt.checkHeader = 0
  size : Fit.FDT_V1_SIZE ≤ fdt.totalsize
  memRsv : 0 ≤ fdt.numMemRsv
  tags : ∃ g : Forest ℤ ℤ, Reads fdt 0 g.tokens ∧ g.height = f.height ∧
    ∀ offset ∈ g.leaves, fdt.getpropByOffset offset = none
  rootName : fdt.getName 0 = some ""
  nodes : ShowsNodes fdt (fdt.firstSubnode 0) (sub f "/")
  properties : ∀ p ∈ (sub f "/").leavesHere, fdt.rootHasProp p.name = true
  path : ∀ name ∈ names (sub f "/"), 0 ≤ fdt.pathOffset ("/" ++ name)

def NameIsPlain (name : String) : Prop := '@' ∉ name.toList

instance : DecidablePred NameIsPlain := fun name => inferInstanceAs (Decidable ('@' ∉ name.toList))

theorem siblingsPlain_iff_nodesAll {fdt : Fdt} {node : ℤ} {f : Its} (h : ShowsNodes fdt node f) :
    SiblingsPlain fdt node ↔ f.NodesAll NameIsPlain := by
  induction h with
  | nil hneg =>
    constructor
    · intro _
      trivial
    · intro _ hpos
      omega
  | leaf _ ih => exact ih
  | @node node name children rest hpos hname _ _ ihChildren ihRest =>
    have hplain : Fit.NameIsPlain fdt node ↔ NameIsPlain name := by
      constructor
      · rintro ⟨name', hname', hat⟩
        rw [hname, Option.some_inj] at hname'
        rwa [← hname'] at hat
      · intro hat
        exact ⟨_, hname, hat⟩
    rw [Fit.siblingsPlain_iff hpos, Fit.noUnitAddress_iff_siblingsPlain, hplain, ihChildren, ihRest,
      and_assoc]
    rfl

/-! ### The names of the assembled source -/

section Names

variable {env : Env} {ramdisk : String}

theorem nameIsPlain_append (p a : String) (hp : NameIsPlain p) :
    NameIsPlain (p ++ a) ↔ NameIsPlain a := by
  unfold NameIsPlain at hp ⊢
  rw [String.toList_append, List.mem_append, not_or]
  exact and_iff_right hp

/-- A node without nodes below it that is written under a condition. -/
theorem of_mem_optional {p : Prop} [Decidable p] {name : String} {bs : List Property}
    {n : String × Its} (hname : NameIsPlain name)
    (hn : n ∈ if p then [(name, level bs [])] else []) :
    NameIsPlain n.1 ∧ n.2.NodesAll NameIsPlain ∧ n.2.height + 1 ≤ 1 := by
  by_cases hp : p
  · rw [if_pos hp, List.mem_singleton] at hn
    have hheight : (level bs ([] : List (String × Its))).height ≤ 0 :=
      height_level_le bs fun n hn => absurd hn List.not_mem_nil
    rw [hn, nodesAll_level]
    exact ⟨hname, fun n hn => absurd hn List.not_mem_nil, Nat.succ_le_succ hheight⟩
  · rw [if_neg hp] at hn
    exact absurd hn List.not_mem_nil

theorem imageNode_nodesAll (name : String) (properties : List Property) (csum : String) :
    (imageNode name properties csum).2.NodesAll NameIsPlain ∧
      (imageNode name properties csum).2.height ≤ 1 := by
  have hhash : NameIsPlain "hash-1" := by decide
  rw [imageNode, nodesAll_level]
  constructor
  · intro n hn
    obtain ⟨hname, hall, -⟩ := of_mem_optional hhash hn
    exact ⟨hname, hall⟩
  · apply height_level_le
    intro n hn
    exact (of_mem_optional hhash hn).2.2

theorem configNode_nodesAll (default dtb : String) :
    (configNode env ramdisk default dtb).2.NodesAll NameIsPlain ∧
      (configNode env ramdisk default dtb).2.height ≤ 1 := by
  have hchild : ∀ n ∈ hashNodes (hashType env) ++
      signatureNodes env dtb ramdisk (setupcount env) (hashType env),
      NameIsPlain n.1 ∧ n.2.NodesAll NameIsPlain ∧ n.2.height + 1 ≤ 1 := by
    intro n hn
    rcases List.mem_append.mp hn with hhash | hsignature
    · exact of_mem_optional (by decide) hhash
    · exact of_mem_optional (by decide) hsignature
  rw [configNode, nodesAll_level]
  constructor
  · intro n hn
    exact ⟨(hchild n hn).1, (hchild n hn).2.1⟩
  · apply height_level_le
    intro n hn
    exact (hchild n hn).2.2

theorem imageNodes_nodesAll (hnamed : ∀ word ∈ foundDtbs env, dtbName word ≠ "") :
    (level [] (imageNodes env ramdisk)).NodesAll NameIsPlain ↔
      ∀ word ∈ foundDtbs env, NameIsPlain (dtbName word) := by
  rw [nodesAll_level]
  constructor
  · intro h word hword
    have hmem : dtbNode env word ∈ imageNodes env ramdisk :=
      List.mem_append_left _ (List.mem_append_left _ (List.mem_cons_of_mem _
        (List.mem_map_of_mem hword)))
    have hname := (h _ hmem).1
    rw [dtbNode, if_neg (hnamed word hword)] at hname
    exact (nameIsPlain_append "fdt-" _ (by decide)).mp hname
  · intro h n hn
    have hmem : n.1 ∈ names (images (itsOf env ramdisk)) := by
      rw [images_itsOf, names, nodesHere_level]
      exact List.mem_map_of_mem hn
    obtain ⟨name, properties, -, heq, -⟩ := exists_imageNode hnamed hn
    constructor
    · rcases mem_names_images.mp hmem with hk | ⟨word, hword, hf⟩ | ⟨hs, -⟩ | ⟨hr, -⟩
      · rw [hk]
        decide
      · rw [hf, if_neg (hnamed word hword)]
        exact (nameIsPlain_append "fdt-" _ (by decide)).mpr (h word hword)
      · rw [hs]
        decide
      · rw [hr]
        decide
    · rw [heq]
      exact (imageNode_nodesAll name properties (hashType env)).1

theorem configsNode_nodesAll (h : ∀ dtb ∈ confDtbs env, NameIsPlain dtb) :
    (configsNode env ramdisk).NodesAll NameIsPlain := by
  rw [configsNode, nodesAll_level]
  intro n hn
  obtain ⟨default, dtb, hdtb, rfl⟩ := exists_configNode hn
  exact ⟨(nameIsPlain_append "conf-" dtb (by decide)).mpr (h dtb hdtb),
    (configNode_nodesAll default dtb).1⟩

theorem root_itsOf : sub (itsOf env ramdisk) "/" = level
    [text "description"
      ("U-Boot fitImage for " ++ env.distroName ++ "/" ++ env.pv ++ "/" ++ env.machine),
      cells "#address-cells" "1"]
    [("images", level [] (imageNodes env ramdisk)),
      ("configurations", configsNode env ramdisk)] := by
  simp [sub, itsOf]

theorem root_nodesAll (hnamed : ∀ word ∈ foundDtbs env, dtbName word ≠ "") :
    (sub (itsOf env ramdisk) "/").NodesAll NameIsPlain ↔
      ∀ word ∈ foundDtbs env, NameIsPlain (dtbName word) := by
  rw [root_itsOf, nodesAll_level, List.forall_mem_cons, List.forall_mem_singleton,
    imageNodes_nodesAll hnamed]
  constructor
  · intro h
    exact h.1.2
  · intro h
    have himages : NameIsPlain "images" := by decide
    have hconfigs : NameIsPlain "configurations" := by decide
    refine ⟨⟨himages, h⟩, hconfigs, configsNode_nodesAll ?_⟩
    intro dtb hdtb
    obtain ⟨-, word, hword, rfl⟩ := mem_confDtbs.mp hdtb
    exact h word hword

theorem height_itsOf (hnamed : ∀ word ∈ foundDtbs env, dtbName word ≠ "") :
    (itsOf env ramdisk).height ≤ 4 := by
  have himages : (level [] (imageNodes env ramdisk)).height ≤ 2 := by
    apply height_level_le
    intro n hn
    obtain ⟨name, properties, -, rfl, -⟩ := exists_imageNode hnamed hn
    exact Nat.succ_le_succ (imageNode_nodesAll name properties (hashType env)).2
  have hconfigs : (configsNode env ramdisk).height ≤ 2 := by
    apply height_level_le
    intro n hn
    obtain ⟨default, dtb, -, rfl⟩ := exists_configNode hn
    exact Nat.succ_le_succ (configNode_nodesAll default dtb).2
  apply height_level_le
  intro n hn
  rw [List.mem_singleton.mp hn]
  apply Nat.succ_le_succ
  apply height_level_le
  intro m hm
  rcases List.mem_cons.mp hm with rfl | hm
  · exact Nat.succ_le_succ himages
  · rw [List.mem_singleton.mp hm]
    exact Nat.succ_le_succ hconfigs

end Names

/-- The blob that is compiled from an assembled FIT which boots is refused by U-Boot only for want
of a timestamp or, where it checks signatures, because of an `@` in the name of a device tree. -/
theorem assembled_passes_check (env : Env) (ramdisk : String) (f : Its) (a : Assembled)
    (hassemble : fitimageAssemble env ramdisk = some a) (hf : a.its = f.tokens)
    (hboot : Bootable env.fileExists f) (config : Fit.Config) (fdt : Fdt)
    (hcompiled : Compiled fdt f) (size : Option ℕ) (hsize : fdt.totalsize ≤ size.getD fdt.totalsize)
    (fuel : ℕ) (hfuel : 2 * fdt.totalsize + 2 ≤ fuel) :
    Fit.fitCheckFormat config fdt size fuel = some 0 ↔
      (config.enableTimestamp = true → fdt.rootHasProp Fit.FIT_TIMESTAMP_PROP = true) ∧
      (config.fitFullCheck = true → config.fitSignature = true →
        ∀ word ∈ foundDtbs env, '@' ∉ (dtbName word).toList) := by
  obtain ⟨hdeployed, rfl⟩ := assembled_itsOf hassemble
  have hits : itsOf env ramdisk = f := tokens_injective hf
  subst hits
  have hnamed := ((bootable_itsOf_iff hdeployed).mp hboot).named
  have hdesc : fdt.rootHasProp Fit.FIT_DESC_PROP = true := by
    have hproperties := hcompiled.properties
    rw [root_itsOf, leavesHere_level] at hproperties
    exact hproperties _ List.mem_cons_self
  have hpath : 0 ≤ fdt.pathOffset Fit.FIT_IMAGES_PATH := by
    have hpath := hcompiled.path
    rw [root_itsOf, names, nodesHere_level] at hpath
    exact hpath "images" List.mem_cons_self
  have hfits : Fit.HeaderFits fdt (size.getD fdt.totalsize) :=
    ⟨hcompiled.size.trans hsize, hcompiled.header, hsize, hcompiled.memRsv⟩
  have hstruct : Fit.WellStructured fdt := by
    obtain ⟨g, hreads, hheight, hread⟩ := hcompiled.tags
    refine ⟨g, hreads, ?_, hread⟩
    have hle : (itsOf env ramdisk).height ≤ 4 := height_itsOf hnamed
    rw [hheight]
    exact hle.trans (by decide)
  have hplain : NoUnitAddress fdt 0 ↔ ∀ word ∈ foundDtbs env, '@' ∉ (dtbName word).toList := by
    rw [Fit.noUnitAddress_iff_siblingsPlain, siblingsPlain_iff_nodesAll hcompiled.nodes,
      root_nodesAll hnamed]
    exact and_iff_right ⟨"", hcompiled.rootName, by decide⟩
  obtain ⟨ret, hret, hfirst⟩ :=
    Fit.exists_fitCheckFormat config hcompiled.documented size hfuel
  have hzero := hfirst.eq_zero_iff (Fit.formatChecks_codes config fdt size)
  simp only [Fit.formatChecks, List.forall_mem_cons, List.not_mem_nil, false_implies,
    implies_true, and_true, hcompiled.header, hdesc, hfits, hstruct, hpath, hplain, true_and]
    at hzero
  rw [hret, Option.some_inj]
  exact hzero

/-- A deploy directory with a kernel and one device tree. -/
def oneDtb : Env where
  distroName := "openbmc"
  pv := "1"
  machine := "evb"
  arch := "arm"
  imageBasename := "image"
  deployDirImage := "/deploy"
  kernelDevicetree := ["evb.dtb"]
  initramfsImage := ""
  splBinary := ""
  secureBootAlgoSelect := ""
  secureBootHashTypeSelect := ""
  ubootArch := "arm"
  ubootLoadaddress := "0x80001000"
  ubootEntrypoint := "0x80001000"
  ubootEntrysymbol := ""
  ubootRdLoadaddress := ""
  ubootRdEntrypoint := ""
  ubootSignEnable := ""
  ubootSignKeyname := ""
  fileExists path := path ≠ "arch/arm/boot/setup.bin"
  nmVmlinux _ := ""

theorem oneDtb_found : foundDtbs oneDtb = ["evb.dtb"] := by decide +kernel

theorem oneDtb_name : dtbName "evb.dtb" = "evb.dtb" := by decide +kernel

theorem oneDtb_packable : Packable oneDtb "" where
  deployed := by decide +kernel
  kernel := by decide +kernel
  some_dtb := by rw [oneDtb_found]; simp
  named := by rw [oneDtb_found]; simp [oneDtb_name]
  distinct := by rw [oneDtb_found]; simp
  ramdisk := .inl rfl

/-- Its blob, with one word for each tag. -/
def oneDtbBlob : Fdt where
  checkHeader := 0
  totalsize := 64
  numMemRsv := 0
  nextTag offset :=
    if offset < 0 ∨ 31 < offset then (.fdtEnd, -Fit.FDT_ERR_TRUNCATED)
    else if offset ∈ [0, 3, 4, 14, 22, 24] then (.beginNode, offset + 1)
    else if offset ∈ [13, 20, 21, 28, 29, 30] then (.endNode, offset + 1)
    else if offset = 31 then (.fdtEnd, offset + 1)
    else (.prop, offset + 1)
  getpropByOffset _ := none
  rootHasProp name := name ∈ ["description", "#address-cells", "timestamp"]
  getName offset := [(0, ""), (3, "images"), (4, "kernel-1"), (14, "fdt-evb.dtb"),
    (22, "configurations"), (24, "conf-evb.dtb")].lookup offset
  firstSubnode node := if node = 0 then 3 else if node = 3 then 4 else if node = 22 then 24 else -1
  nextSubnode node := if node = 3 then 22 else if node = 4 then 14 else -1
  pathOffset path := if path = "/images" then 3 else if path = "/configurations" then 22 else -1

theorem oneDtbBlob_documented : oneDtbBlob.Documented where
  nextTag_gt offset := by
    simp only [oneDtbBlob, Fit.FDT_ERR_TRUNCATED]
    split_ifs <;> simp
  nextTag_le offset := by
    simp only [oneDtbBlob, Fit.FDT_ERR_TRUNCATED]
    split_ifs <;> simp <;> omega
  getprop_neg _ _ h := nomatch h
  firstSubnode_gt node := by
    simp only [oneDtbBlob]
    split_ifs <;> omega
  firstSubnode_le node := by
    simp only [oneDtbBlob]
    split_ifs <;> simp
  nextSubnode_gt node := by
    simp only [oneDtbBlob]
    split_ifs <;> omega
  nextSubnode_le node := by
    simp only [oneDtbBlob]
    split_ifs <;> simp

def oneDtbOffsets : Forest ℤ ℤ :=
  level [] [(0, level [1, 2]
    [(3, level [] [(4, level [5, 6, 7, 8, 9, 10, 11, 12] []), (14, level [15, 16, 17, 18, 19] [])]),
      (22, level [23] [(24, level [25, 26, 27] [])])])]

theorem oneDtb_reads : Reads oneDtbBlob 0 oneDtbOffsets.tokens := by
  simp only [oneDtbOffsets, tokens, level, ofNodes, List.nil_append, List.cons_append]
  repeat first
    | exact .done rfl (by decide)
    | refine .enter rfl (by decide) ?_
    | refine .leave rfl (by decide) ?_
    | refine .prop rfl (by decide) ?_

theorem oneDtb_images : imageNodes oneDtb "" =
    [imageNode "kernel-1" (kernelProperties oneDtb "/deploy/zImage" "none") "",
      imageNode "fdt-evb.dtb" (dtbProperties oneDtb (dtbPath oneDtb "evb.dtb")) ""] := by
  have hsetup : setupNodes oneDtb = [] := if_neg (by decide +kernel)
  rw [imageNodes, oneDtb_found, hsetup, List.map_cons, dtbNode, oneDtb_name]
  rfl

theorem oneDtb_configs : configsNode oneDtb "" = level [text "default" "conf-evb.dtb"]
    [("conf-evb.dtb", level [text "description" "1 Linux kernel, FDT blob",
      text "kernel" "kernel-1", text "fdt" "fdt-evb.dtb"] [])] := by
  have hdtbs : confDtbs oneDtb = ["evb.dtb"] := by
    rw [confDtbs, oneDtb_found, List.map_cons, oneDtb_name]
    rfl
  have hsetup : setupcount oneDtb = "" := if_neg (by decide +kernel)
  rw [configsNode, hdtbs, configNodes, configNode, hsetup]
  rfl

theorem oneDtb_shows : ShowsNodes oneDtbBlob 3 (sub (itsOf oneDtb "") "/") := by
  rw [root_itsOf, oneDtb_images, oneDtb_configs]
  exact .leaf (.leaf (.node (by decide) rfl
    (.node (by decide) rfl
      (.leaf (.leaf (.leaf (.leaf (.leaf (.leaf (.leaf (.leaf (.nil (by decide))))))))))
      (.node (by decide) rfl (.leaf (.leaf (.leaf (.leaf (.leaf (.nil (by decide)))))))
        (.nil (by decide))))
    (.node (by decide) rfl
      (.leaf (.node (by decide) rfl (.leaf (.leaf (.leaf (.nil (by decide))))) (.nil (by decide))))
      (.nil (by decide)))))

theorem oneDtb_compiled : Compiled oneDtbBlob (itsOf oneDtb "") where
  documented := oneDtbBlob_documented
  header := rfl
  size := by decide
  memRsv := by decide
  tags := by
    refine ⟨oneDtbOffsets, oneDtb_reads, ?_, fun _ _ => rfl⟩
    rw [itsOf, oneDtb_images, oneDtb_configs]
    rfl
  rootName := rfl
  nodes := oneDtb_shows
  properties := by
    rw [root_itsOf, leavesHere_level]
    simp [oneDtbBlob, text, cells]
  path := by
    rw [root_itsOf, names, nodesHere_level]
    simp [oneDtbBlob]

/-- With a full check, signatures and timestamps the blob is accepted. -/
theorem assembled_passes_check_oneDtb :
    Fit.fitCheckFormat ⟨true, true, true⟩ oneDtbBlob none 130 = some 0 := by
  apply (assembled_passes_check oneDtb "" (itsOf oneDtb "") _
    (fitimageAssemble_eq oneDtb "" oneDtb_packable.deployed) rfl
    ((bootable_itsOf_iff oneDtb_packable.deployed).mpr oneDtb_packable) ⟨true, true, true⟩
    oneDtbBlob oneDtb_compiled none (le_refl _) 130 (by decide)).mpr
  rw [oneDtb_found]
  simp [oneDtbBlob, Fit.FIT_TIMESTAMP_PROP, oneDtb_name]

end MetaCommon.FullFitimage
