import MetaCommon.FullFitimage.Tree

/-!
# What the assembled FIT is good for

A FIT is of use if dtc takes its source and if U-Boot, which without a choice of its own boots the
configuration that `default` names, finds all that its configurations refer to. Whether the
assembled one is depends on the deploy directory.
-/

namespace MetaCommon.FullFitimage

open Forest

structure Bootable (fileExists : String → Bool) (f : Its) : Prop where
  wellFormed : f.BelowAll WellFormed
  default : ∃ conf ∈ names (configurations f),
    valueOf (configurations f) "default" = some (.strings [conf])
  kernel : ∀ conf ∈ (configurations f).nodesHere, "kernel" ∈ (references conf.2).map Prod.fst
  resolves : ∀ conf ∈ (configurations f).nodesHere, ∀ r ∈ references conf.2, r.2 ∈ names (images f)
  used : ∀ image ∈ names (images f), ∃ conf ∈ (configurations f).nodesHere,
    ∃ r ∈ references conf.2, r.2 = image
  packed : ∀ image ∈ (images f).nodesHere, ∃ path,
    valueOf image.2 "data" = some (.incbin path) ∧ fileExists path = true

/-- The kernel is looked for in the deploy directory, but only the directory decides what is found:
it is always `zImage`. -/
structure Packable (env : Env) (ramdisk : String) : Prop where
  deployed : env.fileExists (env.deployDirImage ++ "/") = true
  kernel : env.fileExists (env.deployDirImage ++ "/zImage") = true
  some_dtb : foundDtbs env ≠ []
  named : ∀ word ∈ foundDtbs env, dtbName word ≠ ""
  distinct : ((foundDtbs env).map dtbName).Nodup
  ramdisk : ramdisk = "" ∨
    ramdisk = "1" ∧ ∃ img ∈ archives, env.fileExists (initramfsPath env img) = true

variable {env : Env} {ramdisk : String}

theorem findInitramfs_isSome : (findInitramfs env).isSome ↔
    ∃ img ∈ archives, env.fileExists (initramfsPath env img) = true := by
  rw [findInitramfs, Option.isSome_map, List.find?_isSome]

theorem findInitramfs_exists {path : String} (h : findInitramfs env = some path) :
    env.fileExists path = true := by
  obtain ⟨img, hfind, rfl⟩ := Option.map_eq_some_iff.mp h
  exact List.find?_some (p := fun img => env.fileExists (initramfsPath env img)) hfind

theorem confDtbs_eq (h : ∀ word ∈ foundDtbs env, dtbName word ≠ "") :
    confDtbs env = (foundDtbs env).map dtbName := by
  apply List.filter_eq_self.mpr
  intro dtb hdtb
  obtain ⟨word, hword, rfl⟩ := List.mem_map.mp hdtb
  exact decide_eq_true (h word hword)

theorem mem_references {default dtb : String} {r : String × String}
    (h : r ∈ references (configNode env ramdisk default dtb).2) :
    r.2 = "kernel-1" ∨ (r.2 = "fdt-" ++ dtb ∧ dtb ≠ "") ∨
      (r.2 = "ramdisk-" ++ ramdisk ∧ ramdisk ≠ "") ∨
      (r.2 = "setup-1" ∧ env.fileExists (setupPath env) = true) := by
  rw [references_configNode, List.mem_append, List.mem_append, List.mem_append] at h
  rcases h with ((h | h) | h) | h
  · exact .inl (congrArg Prod.snd (List.mem_singleton.mp h))
  · by_cases hdtb : dtb ≠ ""
    · rw [if_pos hdtb] at h
      exact .inr (.inl ⟨congrArg Prod.snd (List.mem_singleton.mp h), hdtb⟩)
    · rw [if_neg hdtb] at h
      exact absurd h List.not_mem_nil
  · by_cases hramdisk : ramdisk ≠ ""
    · rw [if_pos hramdisk] at h
      exact .inr (.inr (.inl ⟨congrArg Prod.snd (List.mem_singleton.mp h), hramdisk⟩))
    · rw [if_neg hramdisk] at h
      exact absurd h List.not_mem_nil
  · by_cases hsetup : env.fileExists (setupPath env)
    · rw [if_pos hsetup] at h
      exact .inr (.inr (.inr ⟨congrArg Prod.snd (List.mem_singleton.mp h), hsetup⟩))
    · rw [if_neg hsetup] at h
      exact absurd h List.not_mem_nil

/-- An image with a path for its name is none that a configuration refers to. -/
theorem named_of_used (h : ∀ image ∈ names (images (itsOf env ramdisk)),
    ∃ conf ∈ (configurations (itsOf env ramdisk)).nodesHere, ∃ r ∈ references conf.2,
      r.2 = image) : ∀ word ∈ foundDtbs env, dtbName word ≠ "" := by
  intro word hword hname
  have himage : "fdt-" ++ dtbPath env word ∈ names (images (itsOf env ramdisk)) := by
    rw [mem_names_images]
    exact .inr (.inl ⟨word, hword, by rw [if_pos hname]⟩)
  obtain ⟨conf, hconf, r, hr, heq⟩ := h _ himage
  rw [configurations_itsOf, configsNode, nodesHere_level] at hconf
  obtain ⟨default, dtb, hdtb, rfl⟩ := exists_configNode hconf
  have hfdt : ("fdt-" ++ dtbPath env word).toList.head? = some 'f' := head?_append _ rfl
  rcases mem_references hr with hk | ⟨hf, -⟩ | ⟨hrd, -⟩ | ⟨hs, -⟩
  · exact ne_of_head? (c := 'k') rfl hfdt (by decide) (hk.symm.trans heq)
  · rw [hf] at heq
    obtain ⟨-, word', -, rfl⟩ := mem_confDtbs.mp hdtb
    apply slash_not_mem_dtbName word'
    rw [(String.append_right_inj _).mp heq]
    exact slash_mem_dtbPath env word
  · exact ne_of_head? (c := 'r') (head?_append _ rfl) hfdt (by decide) (hrd.symm.trans heq)
  · exact ne_of_head? (c := 's') rfl hfdt (by decide) (hs.symm.trans heq)

theorem ramdisk_of_resolves (hdtbs : confDtbs env ≠ [])
    (h : ∀ conf ∈ (configurations (itsOf env ramdisk)).nodesHere, ∀ r ∈ references conf.2,
      r.2 ∈ names (images (itsOf env ramdisk))) :
    ramdisk = "" ∨ ramdisk = "1" ∧ (findInitramfs env).isSome := by
  by_cases hempty : ramdisk = ""
  · exact .inl hempty
  obtain ⟨dtb, hdtb⟩ := List.exists_mem_of_ne_nil _ hdtbs
  obtain ⟨default, hconf⟩ := exists_mem_configNodes env ramdisk hdtb
  have href : ("ramdisk", "ramdisk-" ++ ramdisk) ∈
      references (configNode env ramdisk default dtb).2 := by
    rw [references_configNode, if_pos hempty]
    simp
  rw [configurations_itsOf, configsNode, nodesHere_level] at h
  have hhead : ("ramdisk-" ++ ramdisk).toList.head? = some 'r' := head?_append _ rfl
  rcases mem_names_images.mp (h _ hconf _ href) with hk | ⟨_, -, hf⟩ | ⟨hs, -⟩ | ⟨-, hone, hsome⟩
  · exact absurd hk (ne_of_head? (d := 'k') hhead rfl (by decide))
  · exact absurd hf (ne_of_head? (d := 'f') hhead (head?_append _ rfl) (by decide))
  · exact absurd hs (ne_of_head? (d := 's') hhead rfl (by decide))
  · exact .inr ⟨hone, hsome⟩

theorem names_images_sublist (ramdisk : String) (h : ∀ word ∈ foundDtbs env, dtbName word ≠ "") :
    (((foundDtbs env).map dtbName).map ("fdt-" ++ ·)).Sublist (names (images (itsOf env ramdisk))) ∧
    (names (images (itsOf env ramdisk))).Sublist
      ("kernel-1" :: ((foundDtbs env).map dtbName).map ("fdt-" ++ ·) ++
        ["setup-1", "ramdisk-1"]) := by
  have hdtbs : ((foundDtbs env).map (dtbNode env)).map Prod.fst =
      ((foundDtbs env).map dtbName).map ("fdt-" ++ ·) := by
    rw [List.map_map, List.map_map]
    apply List.map_congr_left
    intro word hword
    simp only [Function.comp_apply, dtbNode, if_neg (h word hword), imageNode]
  have hsetup : ((setupNodes env).map Prod.fst).Sublist ["setup-1"] := by
    unfold setupNodes
    by_cases hex : env.fileExists (setupPath env)
    · rw [if_pos hex]
      exact List.Sublist.refl _
    · rw [if_neg hex]
      exact List.nil_sublist _
  have hramdisk : ((ramdiskNodes env ramdisk).map Prod.fst).Sublist ["ramdisk-1"] := by
    unfold ramdiskNodes
    by_cases hone : ramdisk = "1"
    · rw [if_pos hone]
      cases findInitramfs env with
      | none => exact List.nil_sublist _
      | some path => exact List.Sublist.refl _
    · rw [if_neg hone]
      exact List.nil_sublist _
  rw [images_itsOf, names, nodesHere_level, imageNodes, List.map_append, List.map_append,
    List.map_cons, hdtbs, List.append_assoc, List.cons_append]
  exact ⟨(List.sublist_append_left _ _).cons _,
    ((List.Sublist.refl _).append (hsetup.append hramdisk)).cons_cons _⟩

theorem names_images_nodup (h : ∀ word ∈ foundDtbs env, dtbName word ≠ "") :
    (names (images (itsOf env ramdisk))).Nodup ↔ ((foundDtbs env).map dtbName).Nodup := by
  obtain ⟨hbelow, habove⟩ := names_images_sublist ramdisk h
  constructor
  · intro hnodup
    exact (hnodup.sublist hbelow).of_map _
  · intro hnodup
    apply List.Nodup.sublist habove
    have hfdt : ∀ {name c}, name ∈ ((foundDtbs env).map dtbName).map ("fdt-" ++ ·) →
        c ≠ 'f' → ∀ {other : String}, other.toList.head? = some c → other ≠ name := by
      intro name c hname hc other hother
      obtain ⟨dtb, -, rfl⟩ := List.mem_map.mp hname
      exact ne_of_head? hother (head?_append dtb rfl) hc
    rw [List.cons_append, List.nodup_cons, List.mem_append, List.nodup_append]
    refine ⟨?_, hnodup.map fun a b => (String.append_right_inj _).mp, by decide, ?_⟩
    · rintro (hmem | hmem)
      · exact hfdt (c := 'k') hmem (by decide) rfl rfl
      · exact absurd hmem (by decide)
    · intro name hname other hother
      rcases List.mem_cons.mp hother with rfl | hother
      · exact (hfdt (c := 's') hname (by decide) rfl).symm
      · rw [List.mem_singleton.mp hother]
        exact (hfdt (c := 'r') hname (by decide) rfl).symm

theorem exists_imageNode (hnamed : ∀ word ∈ foundDtbs env, dtbName word ≠ "")
    {image : String × Its} (himage : image ∈ imageNodes env ramdisk) :
    ∃ name properties path, image = imageNode name properties (hashType env) ∧
      valueOf image.2 "data" = some (.incbin path) ∧
      (path = env.deployDirImage ++ "/zImage" ∨ env.fileExists path = true) := by
  rw [imageNodes, List.mem_append, List.mem_append, List.mem_cons, List.mem_map] at himage
  have hvalue : ∀ {name path} {properties : List Property},
      (properties.find? fun p => p.name = "data") = some (data path) →
      valueOf (imageNode name properties (hashType env)).2 "data" = some (.incbin path) := by
    intro name path properties hfind
    rw [valueOf, imageNode, leavesHere_level, hfind]
    rfl
  rcases himage with ((hkernel | ⟨word, hword, hdtb⟩) | hsetup) | hramdisk
  · rw [hkernel]
    exact ⟨_, _, _, rfl, hvalue rfl, .inl rfl⟩
  · rw [dtbNode, if_neg (hnamed word hword)] at hdtb
    rw [← hdtb]
    exact ⟨_, _, _, rfl, hvalue rfl, .inr (List.mem_filter.mp hword).2⟩
  · unfold setupNodes at hsetup
    by_cases hex : env.fileExists (setupPath env)
    · rw [if_pos hex, List.mem_singleton] at hsetup
      rw [hsetup]
      exact ⟨_, _, _, rfl, hvalue rfl, .inr hex⟩
    · rw [if_neg hex] at hsetup
      exact absurd hsetup List.not_mem_nil
  · unfold ramdiskNodes at hramdisk
    by_cases hone : ramdisk = "1"
    · rw [if_pos hone, Option.mem_toList, Option.map_eq_some_iff] at hramdisk
      obtain ⟨path, hpath, hnode⟩ := hramdisk
      rw [← hnode]
      exact ⟨_, _, _, rfl, hvalue rfl, .inr (findInitramfs_exists hpath)⟩
    · rw [if_neg hone] at hramdisk
      exact absurd hramdisk List.not_mem_nil

theorem packed_of_kernel (hkernel : env.fileExists (env.deployDirImage ++ "/zImage") = true)
    (hnamed : ∀ word ∈ foundDtbs env, dtbName word ≠ "") :
    ∀ image ∈ (images (itsOf env ramdisk)).nodesHere, ∃ path,
      valueOf image.2 "data" = some (.incbin path) ∧ env.fileExists path = true := by
  intro image himage
  rw [images_itsOf, nodesHere_level] at himage
  obtain ⟨-, -, path, -, hvalue, hpath⟩ := exists_imageNode hnamed himage
  rcases hpath with rfl | hex
  · exact ⟨_, hvalue, hkernel⟩
  · exact ⟨path, hvalue, hex⟩

theorem kernel_mem_references (default dtb : String) :
    ("kernel", "kernel-1") ∈ references (configNode env ramdisk default dtb).2 := by
  rw [references_configNode]
  simp

theorem resolves_of_packable (h : Packable env ramdisk) {default dtb : String}
    (hdtb : dtb ∈ confDtbs env) {r : String × String}
    (hr : r ∈ references (configNode env ramdisk default dtb).2) :
    r.2 ∈ names (images (itsOf env ramdisk)) := by
  rw [mem_names_images]
  rcases mem_references hr with hk | ⟨hf, -⟩ | ⟨hrd, hne⟩ | ⟨hs, hex⟩
  · exact .inl hk
  · obtain ⟨hne, word, hword, rfl⟩ := mem_confDtbs.mp hdtb
    exact .inr (.inl ⟨word, hword, by rw [if_neg hne, hf]⟩)
  · rcases h.ramdisk with hempty | ⟨hone, hfound⟩
    · exact absurd hempty hne
    · refine .inr (.inr (.inr ⟨?_, hone, findInitramfs_isSome.mpr hfound⟩))
      rw [hrd, hone]
      rfl
  · exact .inr (.inr (.inl ⟨hs, hex⟩))

theorem used_of_packable (h : Packable env ramdisk) {image : String}
    (himage : image ∈ names (images (itsOf env ramdisk))) :
    ∃ conf ∈ configNodes env ramdisk (confDtbs env), ∃ r ∈ references conf.2, r.2 = image := by
  obtain ⟨word, hword⟩ := List.exists_mem_of_ne_nil _ h.some_dtb
  have hdtb : dtbName word ∈ confDtbs env := mem_confDtbs.mpr ⟨h.named word hword, word, hword, rfl⟩
  obtain ⟨default, hconf⟩ := exists_mem_configNodes env ramdisk hdtb
  rcases mem_names_images.mp himage with hk | ⟨word', hword', hf⟩ | ⟨hs, hex⟩ | ⟨hrd, hone, -⟩
  · exact ⟨_, hconf, _, kernel_mem_references default _, hk.symm⟩
  · have hne := h.named word' hword'
    obtain ⟨default', hconf'⟩ := exists_mem_configNodes env ramdisk
      (mem_confDtbs.mpr ⟨hne, word', hword', rfl⟩)
    refine ⟨_, hconf', ("fdt", "fdt-" ++ dtbName word'), ?_, by rw [hf, if_neg hne]⟩
    rw [references_configNode, if_pos hne]
    simp
  · refine ⟨_, hconf, ("setup", "setup-1"), ?_, hs.symm⟩
    rw [references_configNode, if_pos hex]
    simp
  · refine ⟨_, hconf, ("ramdisk", "ramdisk-" ++ ramdisk), ?_, by rw [hrd, hone]; rfl⟩
    have hne : ramdisk ≠ "" := by rw [hone]; decide
    rw [references_configNode, if_pos hne]
    simp

theorem bootable_itsOf_iff (hdeployed : env.fileExists (env.deployDirImage ++ "/") = true) :
    Bootable env.fileExists (itsOf env ramdisk) ↔ Packable env ramdisk := by
  have hconfs : (configurations (itsOf env ramdisk)).nodesHere =
      configNodes env ramdisk (confDtbs env) := by
    rw [configurations_itsOf, configsNode, nodesHere_level]
  constructor
  · intro h
    have hnamed := named_of_used h.used
    obtain ⟨conf, hconf, -⟩ := h.default
    have hdtbs : confDtbs env ≠ [] := by
      intro hnil
      rw [names, hconfs, hnil] at hconf
      exact absurd hconf List.not_mem_nil
    refine ⟨hdeployed, ?_, ?_, hnamed, ?_, ?_⟩
    · obtain ⟨path, hvalue, hex⟩ := h.packed (kernelNode env) (by
        rw [images_itsOf, nodesHere_level, imageNodes]
        exact List.mem_append_left _ (List.mem_append_left _ List.mem_cons_self))
      rw [valueOf, kernelNode, imageNode, leavesHere_level] at hvalue
      rwa [← Value.incbin.inj (Option.some.inj hvalue)] at hex
    · rw [confDtbs_eq hnamed] at hdtbs
      exact fun hnil => hdtbs (by rw [hnil]; rfl)
    · exact (names_images_nodup hnamed).mp (wellFormed_itsOf_iff.mp h.wellFormed).1
    · rcases ramdisk_of_resolves hdtbs h.resolves with hempty | ⟨hone, hsome⟩
      · exact .inl hempty
      · exact .inr ⟨hone, findInitramfs_isSome.mp hsome⟩
  · intro h
    have hdtbs := confDtbs_eq h.named
    refine ⟨?_, ?_, ?_, ?_, ?_, packed_of_kernel h.kernel h.named⟩
    · rw [wellFormed_itsOf_iff, names_images_nodup h.named, hdtbs]
      exact ⟨h.distinct, h.distinct⟩
    · rw [names, hconfs, names_configNodes, configurations_itsOf, configsNode, valueOf,
        leavesHere_level, hdtbs]
      cases hfound : foundDtbs env with
      | nil => exact absurd hfound h.some_dtb
      | cons word words => exact ⟨_, List.mem_cons_self, rfl⟩
    · intro conf hconf
      rw [hconfs] at hconf
      obtain ⟨default, dtb, -, rfl⟩ := exists_configNode hconf
      exact List.mem_map_of_mem (kernel_mem_references default dtb)
    · intro conf hconf r hr
      rw [hconfs] at hconf
      obtain ⟨default, dtb, hdtb, rfl⟩ := exists_configNode hconf
      exact resolves_of_packable h hdtb hr
    · intro image himage
      rw [hconfs]
      exact used_of_packable h himage

/-- Nothing is written where there is no deploy directory, and otherwise the source of `itsOf`. -/
theorem assembled_itsOf {env : Env} {ramdisk : String} {a : Assembled}
    (h : fitimageAssemble env ramdisk = some a) :
    env.fileExists (env.deployDirImage ++ "/") = true ∧ a = ⟨(itsOf env ramdisk).tokens,
      [.build] ++ if env.ubootSignEnable = "1" then [.sign] else []⟩ := by
  by_cases hdeployed : env.fileExists (env.deployDirImage ++ "/") = true
  · rw [fitimageAssemble_eq env ramdisk hdeployed] at h
    exact ⟨hdeployed, (Option.some.inj h).symm⟩
  · rw [fitimageAssemble, findKernel_eq, if_neg hdeployed] at h
    exact absurd h (by simp)

/-- What is written is the source of one tree, and there is always one where there is a deploy
directory. That of a FIT which boots is written exactly if the directory holds `zImage` and at least
one of the device trees, these have different names once slashes are replaced, and a root file
system was found if one is asked for at all. -/
theorem fitimageAssemble_bootable_iff (env : Env) (ramdisk : String) :
    (∀ a, fitimageAssemble env ramdisk = some a → ∃! f : Its, a.its = f.tokens) ∧
    ((∃ f a, fitimageAssemble env ramdisk = some a ∧ a.its = f.tokens ∧
      Bootable env.fileExists f) ↔ Packable env ramdisk) := by
  constructor
  · intro a ha
    obtain ⟨-, rfl⟩ := assembled_itsOf ha
    exact ⟨itsOf env ramdisk, rfl, fun f hf => (tokens_injective hf).symm⟩
  constructor
  · rintro ⟨f, a, ha, hf, hboot⟩
    obtain ⟨hdeployed, rfl⟩ := assembled_itsOf ha
    rw [← tokens_injective hf] at hboot
    exact (bootable_itsOf_iff hdeployed).mp hboot
  · intro h
    exact ⟨itsOf env ramdisk, _, fitimageAssemble_eq env ramdisk h.deployed, rfl,
      (bootable_itsOf_iff h.deployed).mpr h⟩

/-! ### Signatures -/

/-- The signature of every configuration covers all images that the configuration refers to, and
each of them has the hash that is signed. -/
structure SignsAll (f : Its) : Prop where
  covers : ∀ conf ∈ (configurations f).nodesHere,
    valueOf (sub conf.2 "signature-1") "sign-images" =
      some (.strings ((references conf.2).map Prod.fst))
  hashed : ∀ conf ∈ (configurations f).nodesHere, ∀ r ∈ references conf.2,
    ∃ image ∈ (images f).nodesHere, image.1 = r.2 ∧ "hash-1" ∈ names image.2

theorem signImages_eq (default dtb : String) : signImages dtb ramdisk (setupcount env) =
    (references (configNode env ramdisk default dtb).2).map Prod.fst := by
  have hsetup : setupcount env ≠ "" ↔ env.fileExists (setupPath env) = true := by
    unfold setupcount
    by_cases h : env.fileExists (setupPath env)
    · simp [h]
    · simp [h]
  rw [references_configNode, signImages]
  simp only [List.map_append, apply_ite (List.map Prod.fst), hsetup]
  rfl

theorem signature_configNode (default dtb : String) :
    valueOf (sub (configNode env ramdisk default dtb).2 "signature-1") "sign-images" =
      if confSignKeyname env ≠ "" then
        some (.strings ((references (configNode env ramdisk default dtb).2).map Prod.fst))
      else none := by
  have hhash : (hashNodes (hashType env)).find? (fun n => n.1 = "signature-1") = none := by
    unfold hashNodes
    by_cases h : hashType env ≠ ""
    · rw [if_pos h]
      rfl
    · rw [if_neg h]
      rfl
  rw [← signImages_eq, sub, configNode, nodesHere_level, List.find?_append, hhash, Option.none_or,
    signatureNodes]
  by_cases h : confSignKeyname env ≠ ""
  · rw [if_pos h, if_pos h]
    rfl
  · rw [if_neg h, if_neg h]
    rfl

theorem hash_mem_names_iff (name : String) (properties : List Property) (csum : String) :
    "hash-1" ∈ names (imageNode name properties csum).2 ↔ csum ≠ "" := by
  rw [names, imageNode, nodesHere_level, hashNodes]
  by_cases h : csum ≠ ""
  · rw [if_pos h]
    exact iff_of_true List.mem_cons_self h
  · rw [if_neg h]
    exact iff_of_false List.not_mem_nil h

theorem signsAll_itsOf_iff (h : Packable env ramdisk) :
    SignsAll (itsOf env ramdisk) ↔ confSignKeyname env ≠ "" ∧ hashType env ≠ "" := by
  have hconfs : (configurations (itsOf env ramdisk)).nodesHere =
      configNodes env ramdisk (confDtbs env) := by
    rw [configurations_itsOf, configsNode, nodesHere_level]
  have hhashed : ∀ image ∈ (images (itsOf env ramdisk)).nodesHere,
      ("hash-1" ∈ names image.2 ↔ hashType env ≠ "") := by
    intro image himage
    rw [images_itsOf, nodesHere_level] at himage
    obtain ⟨name, properties, -, rfl, -⟩ := exists_imageNode h.named himage
    exact hash_mem_names_iff name properties (hashType env)
  constructor
  · intro hsigns
    obtain ⟨word, hword⟩ := List.exists_mem_of_ne_nil _ h.some_dtb
    obtain ⟨default, hconf⟩ := exists_mem_configNodes env ramdisk
      (mem_confDtbs.mpr ⟨h.named word hword, word, hword, rfl⟩)
    rw [← hconfs] at hconf
    constructor
    · intro hkey
      have hcovers := hsigns.covers _ hconf
      rw [signature_configNode, if_neg (not_not.mpr hkey)] at hcovers
      exact absurd hcovers (by simp)
    · obtain ⟨image, himage, -, hhash⟩ :=
        hsigns.hashed _ hconf _ (kernel_mem_references default _)
      exact (hhashed image himage).mp hhash
  · rintro ⟨hkey, hhash⟩
    constructor
    · intro conf hconf
      rw [hconfs] at hconf
      obtain ⟨default, dtb, -, rfl⟩ := exists_configNode hconf
      rw [signature_configNode, if_pos hkey]
    · intro conf hconf r hr
      rw [hconfs] at hconf
      obtain ⟨default, dtb, hdtb, rfl⟩ := exists_configNode hconf
      obtain ⟨image, himage, hname⟩ := List.mem_map.mp (resolves_of_packable h hdtb hr)
      exact ⟨image, himage, hname, (hhashed image himage).mpr hhash⟩

/-- `UBOOT_SIGN_ENABLE` alone lets mkimage sign. For the FIT that boots to be signed over all it
loads there must also be a key name and, for the hashes, an SPL. -/
theorem fitimageAssemble_signed_iff (env : Env) (ramdisk : String) :
    (∃ f a, fitimageAssemble env ramdisk = some a ∧ a.its = f.tokens ∧ Mkimage.sign ∈ a.mkimage ∧
      Bootable env.fileExists f ∧ SignsAll f) ↔
    Packable env ramdisk ∧ env.ubootSignEnable = "1" ∧ env.ubootSignKeyname ≠ "" ∧
      env.splBinary ≠ "" ∧ env.secureBootHashTypeSelect ≠ "" := by
  have hhash : hashType env ≠ "" ↔ env.splBinary ≠ "" ∧ env.secureBootHashTypeSelect ≠ "" := by
    unfold hashType
    by_cases h : env.splBinary ≠ ""
    · rw [if_pos h]
      exact (and_iff_right h).symm
    · rw [if_neg h]
      exact iff_of_false (by simp) fun hand => h hand.1
  have hsign : Mkimage.sign ∈ ([.build] ++ if env.ubootSignEnable = "1" then [.sign] else []) ↔
      env.ubootSignEnable = "1" := by
    by_cases h : env.ubootSignEnable = "1"
    · simp [h]
    · simp [h]
  have hkey : env.ubootSignEnable = "1" →
      (confSignKeyname env ≠ "" ↔ env.ubootSignKeyname ≠ "") := by
    intro hone
    have hne : env.ubootSignEnable ≠ "" := by rw [hone]; decide
    rw [confSignKeyname, if_pos hne]
  constructor
  · rintro ⟨f, a, ha, hf, hmkimage, hboot, hsigns⟩
    obtain ⟨hdeployed, rfl⟩ := assembled_itsOf ha
    rw [← tokens_injective hf] at hboot hsigns
    have hpack := (bootable_itsOf_iff hdeployed).mp hboot
    have hone := hsign.mp hmkimage
    obtain ⟨hname, htype⟩ := (signsAll_itsOf_iff hpack).mp hsigns
    exact ⟨hpack, hone, (hkey hone).mp hname, hhash.mp htype⟩
  · rintro ⟨hpack, hone, hname, htype⟩
    exact ⟨itsOf env ramdisk, _, fitimageAssemble_eq env ramdisk hpack.deployed, rfl,
      hsign.mpr hone, (bootable_itsOf_iff hpack.deployed).mpr hpack,
      (signsAll_itsOf_iff hpack).mpr ⟨(hkey hone).mpr hname, hhash.mpr htype⟩⟩

end MetaCommon.FullFitimage
