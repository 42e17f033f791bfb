import MetaCommon.EventService.Steps

/-!
# The copies of a subscription

A subscription is copied from the map into the store, from there into the file, and back from the
file. `Copied` says that the copies agree as far as a function of a subscription tells.
-/

namespace MetaCommon.EventService

variable {ρ : Type*} {f : UserSubscription → ρ}

/-- The function tells the type, which decides whether the file has the subscription. -/
def KeepsType (f : UserSubscription → ρ) : Prop :=
  ∀ u v, f u = f v → u.subscriptionType = v.subscriptionType

namespace Manager

variable {m : Manager} {id : String} {sub : Subscription}

def copyOf (f : UserSubscription → ρ) (m : Manager) (id : String) : Option ρ :=
  (m.subscriptionsMap.lookup id).map fun sub => f sub.toUserSubscription

def StoredBy (f : UserSubscription → ρ) (m : Manager) : Prop :=
  ∀ id, (m.subscriptionsConfigMap.lookup id).map f = m.copyOf f id

/-- Every copy has what the map has, and the file only leaves out the subscriptions of streams. -/
structure Copied (f : UserSubscription → ρ) (m : Manager) : Prop where
  stored : m.StoredBy f
  of_file : ∀ id j, m.file.lookup id = some j →
    m.copyOf f id = some (f (UserSubscription.fromJson j))
  in_file : ∀ id sub, m.subscriptionsMap.lookup id = some sub →
    sub.subscriptionType ≠ subscriptionTypeSSE →
      ∃ j, m.file.lookup id = some j ∧ f (UserSubscription.fromJson j) = f sub.toUserSubscription

theorem copyOf_of_lookup (h : m.subscriptionsMap.lookup id = some sub) :
    m.copyOf f id = some (f sub.toUserSubscription) := by rw [copyOf, h]; rfl

theorem copyOf_eq_none (hid : id ∉ m.subscriptionsMap.keys) : m.copyOf f id = none := by
  rw [← FlatMap.lookup_isSome, Option.not_isSome_iff_eq_none] at hid
  rw [copyOf, hid]
  rfl

theorem StoredBy.not_mem_keys (h : m.StoredBy f) (hid : id ∉ m.subscriptionsMap.keys) :
    id ∉ m.subscriptionsConfigMap.keys := by
  have hnone := (h id).trans (copyOf_eq_none hid)
  rw [← FlatMap.lookup_isSome, Option.map_eq_none_iff.mp hnone]
  exact Bool.false_ne_true

theorem lookup_persist_file (m : Manager) (id : String) :
    m.persistSubscriptionData.file.lookup id =
      ((m.subscriptionsConfigMap.lookup id).filter fun u =>
        u.subscriptionType ≠ subscriptionTypeSSE).map UserSubscription.toJson := by
  unfold persistSubscriptionData
  rw [FlatMap.lookup_map, FlatMap.lookup_filter]

theorem StoredBy.persist (hf : KeepsType f) (h : m.StoredBy f) :
    m.persistSubscriptionData.Copied f := by
  refine ⟨h, fun id j hj => ?_, fun id sub hsub htype => ?_⟩
  · rw [lookup_persist_file] at hj
    obtain ⟨u, hu, rfl⟩ := Option.map_eq_some_iff.mp hj
    rw [fromJson_toJson]
    refine (h id).symm.trans ?_
    rw [(Option.filter_eq_some_iff.mp hu).1]
    rfl
  · obtain ⟨u, hu, heq⟩ := Option.map_eq_some_iff.mp ((h id).trans (copyOf_of_lookup hsub))
    have hkept : (some u).filter (fun u => u.subscriptionType ≠ subscriptionTypeSSE) = some u :=
      Option.filter_eq_some_iff.mpr ⟨rfl, decide_eq_true fun hsse => htype (hf _ _ heq ▸ hsse)⟩
    refine ⟨u.toJson, ?_, by rw [fromJson_toJson, heq]⟩
    rw [lookup_persist_file, hu, hkept]
    rfl

theorem lookup_inserted (id' : String) :
    (m.inserted id sub).subscriptionsMap.lookup id' =
      if id = id' then some { sub with subId := id } else m.subscriptionsMap.lookup id' :=
  FlatMap.lookup_assign _ _ _ _

theorem copyOf_inserted (id' : String) : (m.inserted id sub).copyOf f id' =
    if id = id' then some (f sub.toUserSubscription) else m.copyOf f id' := by
  rw [copyOf, lookup_inserted]
  split_ifs <;> rfl

theorem StoredBy.inserted (h : m.StoredBy f) (hid : id ∉ m.subscriptionsMap.keys) :
    (m.inserted id sub).StoredBy f := by
  intro id'
  rw [copyOf_inserted]
  unfold Manager.inserted
  rw [FlatMap.lookup_insert (h.not_mem_keys hid)]
  split_ifs
  · rfl
  · exact h id'

/-- The subscription of a stream is added without the file being written. -/
theorem Copied.inserted (h : m.Copied f) (hid : id ∉ m.subscriptionsMap.keys)
    (hsse : sub.subscriptionType = subscriptionTypeSSE) : (m.inserted id sub).Copied f := by
  refine ⟨h.stored.inserted hid, fun id' j hj => ?_, fun id' sub' hsub htype => ?_⟩
  · have hold := h.of_file id' j hj
    rw [copyOf_inserted, if_neg, hold]
    rintro rfl
    exact absurd (hold.symm.trans (copyOf_eq_none hid)) (Option.some_ne_none _)
  · rw [lookup_inserted] at hsub
    split_ifs at hsub
    · obtain rfl := Option.some.inj hsub
      exact (htype hsse).elim
    · exact h.in_file id' sub' hsub htype

theorem lookup_deleteSubscription (id id' : String) :
    (m.deleteSubscription id).subscriptionsMap.lookup id' =
      if id' = id then none else m.subscriptionsMap.lookup id' := by
  unfold deleteSubscription
  by_cases hid : id ∈ m.subscriptionsMap.keys
  · rw [if_pos hid]
    exact FlatMap.lookup_erase _ _ _
  · rw [if_neg hid]
    split_ifs with heq
    · rw [heq, ← Option.not_isSome_iff_eq_none, FlatMap.lookup_isSome]
      exact hid
    · rfl

theorem Copied.deleteSubscription (hf : KeepsType f) (h : m.Copied f) (id : String) :
    (m.deleteSubscription id).Copied f := by
  unfold Manager.deleteSubscription
  split_ifs
  · apply StoredBy.persist hf
    intro id'
    unfold copyOf
    simp only [FlatMap.lookup_erase]
    split_ifs
    · rfl
    · exact h.stored id'
  · exact h

theorem Copied.deleteSseSubscription (hf : KeepsType f) (h : m.Copied f) (conn : ℕ) :
    (m.deleteSseSubscription conn).Copied f := by
  unfold Manager.deleteSseSubscription
  split
  · exact h.deleteSubscription hf _
  · exact h

theorem lookup_initConfig (id : String) : m.initConfig.subscriptionsMap.lookup id =
    (m.file.lookup id).map fun j =>
      { UserSubscription.fromJson j with subId := id, sseConn := none } := by
  unfold initConfig
  simp only [FlatMap.lookup_map, Option.map_map]
  rfl

theorem copyOf_initConfig (id : String) : m.initConfig.copyOf f id =
    (m.file.lookup id).map fun j => f (UserSubscription.fromJson j) := by
  rw [copyOf, lookup_initConfig, Option.map_map]
  rfl

/-- The copies of a new process are all from the file. -/
theorem copied_initConfig (m : Manager) : m.initConfig.Copied f := by
  refine ⟨fun id => ?_, fun id j hj => ?_, fun id sub hsub _ => ?_⟩
  · rw [copyOf_initConfig]
    unfold initConfig
    rw [FlatMap.lookup_map, Option.map_map]
    rfl
  · rw [copyOf_initConfig, show m.file.lookup id = some j from hj]
    rfl
  · rw [lookup_initConfig] at hsub
    obtain ⟨j, hj, rfl⟩ := Option.map_eq_some_iff.mp hsub
    exact ⟨j, hj, rfl⟩

end Manager

end MetaCommon.EventService
