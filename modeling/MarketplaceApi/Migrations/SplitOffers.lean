import MarketplaceApi.Migrations.SplitSteps

/-!
# Offers through the split

The offers are linked to their variants and their seller ids are mapped to the new sellers, while
the seller and SKU of an offer stay unique. The mapping goes through whatever the order exactly
if no old seller id that may still be in use can be taken by another offer of the same SKU.
-/
namespace MarketplaceApi.Migrations.Split

open Sql

/-- Of two offers with one SKU, neither has a seller that the new ids can run into. -/
def SellersApart (s : State) : Prop :=
  ∀ o ∈ s.offers, ∀ o' ∈ s.offers, o.id ≠ o'.id → o.sku = o'.sku → (sellersOf s.offers).length < o'.sellerId

/-- The same offer, but for its variant. -/
def Linked (o o' : Offer) : Prop := ∃ variantId updatedAt, o' = { o with variantId, updatedAt }

/-- The same offer, but for its seller. -/
def Remapped (o o' : Offer) : Prop := ∃ sellerId updatedAt, o' = { o with sellerId, updatedAt }

def sellerIdUint : Rule TableId Offer := .check fun o => uint o.sellerId

def sellerSku : Rule TableId Offer := .unique fun o o' => o.sellerId = o'.sellerId && o.sku = o'.sku

section
variable (now : Nat) (plan : Plan) (s : State)

/-- The database while the offers are worked on. -/
def offersAt (constraints : List (Constraint TableId Offer)) (rows : List Offer) : Db :=
  { withVariants now plan s with
    offers := some (sellerOfferTable now (s.next .offer) (sellerOfferColumns ++ ["variantId"]) constraints rows) }

def unlinked : List Offer := s.offers.map fun o => { o with variantId := none }

def linkedRows : List Offer :=
  (unlinked s).map fun o => (linked (variantRows now s) o).elim o fun o => { o with updatedAt := now }

def remappedRows : List Offer :=
  (linkedRows now s).map fun o => (remapped (sellerRows now plan s) o).elim o fun o => { o with updatedAt := now }

end

def linkedConstraints : List (Constraint TableId Offer) :=
  sellerOfferConstraints ++ [variantIdUint] ++ [variantIdNotNull] ++ [variantIdFkey]

def remapConstraints : List (Constraint TableId Offer) :=
  linkedConstraints.filter fun c => c.name ≠ "ProductOffer_sellerId_fkey"

section
variable {now : Nat} {plan : Plan} {s : State} {o o' : Offer}

theorem respects_linked : ∀ c ∈ offerConstraints, c.rule.Respects Linked := by
  have hid : ∀ a a' b b' : Offer, Linked a a' → Linked b b' → decide (a'.id = b'.id) = decide (a.id = b.id) := by
    rintro a _ b _ ⟨_, _, rfl⟩ ⟨_, _, rfl⟩
    rfl
  have hsku : ∀ a a' b b' : Offer, Linked a a' → Linked b b' → (decide (a'.sellerId = b'.sellerId) &&
      decide (a'.sku = b'.sku)) = (decide (a.sellerId = b.sellerId) && decide (a.sku = b.sku)) := by
    rintro a _ b _ ⟨_, _, rfl⟩ ⟨_, _, rfl⟩
    rfl
  unfold offerConstraints
  simp only [List.forall_mem_cons, Rule.Respects]
  refine ⟨⟨fun a b => decide_eq_decide.mpr eq_comm, hid⟩, ?_, ?_, ?_, ?_, ?_, ?_, ?_,
    ⟨fun a b => same_comm _ _ _ _, hsku⟩, ?_, ?_, ?_, ?_, ?_, ?_,
    List.forall_mem_nil _⟩
  all_goals
    rintro o _ ⟨_, _, rfl⟩
    rfl

/-- The mapping of the seller ids concerns the column's type, the seller's SKUs and the foreign key. -/
theorem respects_remapped : ∀ c ∈ offerConstraints, c.name ≠ "ProductOffer_sellerId_fkey" →
    c.rule.Respects Remapped ∨ c.rule = sellerIdUint ∨ c.rule = sellerSku := by
  have hid : ∀ a a' b b' : Offer, Remapped a a' → Remapped b b' → decide (a'.id = b'.id) = decide (a.id = b.id) := by
    rintro a _ b _ ⟨_, _, rfl⟩ ⟨_, _, rfl⟩
    rfl
  unfold offerConstraints
  simp only [List.forall_mem_cons, Rule.Respects]
  refine ⟨fun _ => Or.inl ⟨fun a b => decide_eq_decide.mpr eq_comm, hid⟩, fun _ => Or.inl ?_, fun _ => Or.inl ?_,
    fun _ => Or.inl ?_, fun _ => Or.inr (Or.inl rfl), fun _ => Or.inl ?_, fun _ => Or.inl ?_, fun _ => Or.inl ?_,
    fun _ => Or.inr (Or.inr rfl), fun _ => Or.inl ?_, fun _ => Or.inl ?_, fun _ => Or.inl ?_, fun _ => Or.inl ?_,
    fun _ => Or.inl ?_, fun hne => absurd rfl hne, List.forall_mem_nil _⟩
  all_goals
    rintro o _ ⟨_, _, rfl⟩
    rfl

theorem renamed_rule {c : Constraint TableId Offer} (hc : c ∈ sellerOfferConstraints) :
    ∃ old ∈ offerConstraints, c.name = renamedName old.name ∧ c.rule = old.rule := by
  obtain ⟨old, hold, rfl⟩ := List.mem_map.mp hc
  exact ⟨old, hold, rfl, rfl⟩

/-- The variant an offer is linked to. -/
theorem variant_found (now : Nat) (ho : o ∈ s.offers) : ∃ v ∈ variantRows now s,
    (variantRows now s).find? (fun v => v.sku = some (skuOf o)) = some v ∧ v.productId = (productOf s o).id := by
  cases hfound : (variantRows now s).find? fun v => v.sku = some (skuOf o) with
  | none =>
    obtain ⟨id, hin⟩ := variant_of_offer now ho
    have hnone := List.find?_eq_none.mp hfound _ hin
    exact absurd (decide_eq_true rfl) hnone
  | some v =>
    have hv := List.mem_of_find?_eq_some hfound
    have hsku : v.sku = some (skuOf o) := by simpa using List.find?_some hfound
    obtain ⟨o', ho', id, _, _, rfl⟩ := mem_variantRows hv
    have hid : o'.id = o.id := skuOf_inj (Option.some.inj hsku)
    obtain rfl := List.inj_on_of_nodup_map (facts s).ids ho' ho hid
    exact ⟨_, hv, rfl, rfl⟩

theorem mem_unlinked : o' ∈ unlinked s ↔ ∃ o ∈ s.offers, o' = { o with variantId := none } := by
  unfold unlinked
  rw [List.mem_map]
  exact ⟨fun ⟨o, ho, h⟩ => ⟨o, ho, h.symm⟩, fun ⟨o, ho, h⟩ => ⟨o, ho, h.symm⟩⟩

theorem unlinked_ids (s : State) : (unlinked s).map Offer.id = s.offers.map Offer.id := by
  unfold unlinked
  rw [List.map_map]
  rfl

theorem linked_unlinked (now : Nat) (ho : o ∈ s.offers) : ∃ v ∈ variantRows now s, v.productId = (productOf s o).id ∧
    v.sku = some (skuOf o) ∧
    linked (variantRows now s) { o with variantId := none } = some { o with variantId := some v.id } := by
  obtain ⟨v, hv, hfound, hproduct⟩ := variant_found now ho
  refine ⟨v, hv, hproduct, by simpa using List.find?_some hfound, ?_⟩
  unfold linked
  have hsku : skuOf { o with variantId := none } = skuOf o := rfl
  rw [hsku, hfound]
  rfl

theorem linkedRows_ids (now : Nat) (s : State) : (linkedRows now s).map Offer.id = s.offers.map Offer.id := by
  rw [← unlinked_ids]
  unfold linkedRows
  rw [List.map_map]
  apply List.map_congr_left
  intro o' ho'
  obtain ⟨o, ho, rfl⟩ := mem_unlinked.mp ho'
  obtain ⟨v, _, _, _, hlinked⟩ := linked_unlinked now ho
  simp only [Function.comp_apply, hlinked, Option.elim_some]

theorem mem_linkedRows (h : o' ∈ linkedRows now s) : ∃ o ∈ s.offers, ∃ v ∈ variantRows now s,
    v.productId = (productOf s o).id ∧ v.sku = some (skuOf o) ∧
    o' = { o with variantId := some v.id, updatedAt := now } := by
  obtain ⟨o₀, ho₀, rfl⟩ := List.mem_map.mp h
  obtain ⟨o, ho, rfl⟩ := mem_unlinked.mp ho₀
  obtain ⟨v, hv, hproduct, hsku, hlinked⟩ := linked_unlinked now ho
  refine ⟨o, ho, v, hv, hproduct, hsku, ?_⟩
  rw [hlinked]
  rfl

theorem offer_targets : ∀ c ∈ offerConstraints, ∀ target column, c.rule = .references target column →
    target = .product ∨ target = .user := by
  unfold offerConstraints
  simp only [List.forall_mem_cons]
  refine ⟨Rule.not_of_unique _, Rule.not_of_check _, Rule.not_of_check _, Rule.not_of_check _, Rule.not_of_check _,
    Rule.not_of_check _, Rule.not_of_check _, Rule.not_of_check _, Rule.not_of_unique _, Rule.not_of_check _,
    Rule.not_of_check _, Rule.not_of_check _, Rule.not_of_check _, ?_, ?_, List.forall_mem_nil _⟩
  · rintro _ _ ⟨⟩
    exact Or.inl rfl
  · rintro _ _ ⟨⟩
    exact Or.inr rfl

/-- The constraints on the offers, on whatever side tables, while only the variants change. -/
theorem holds_linked (ids : TableId → List Nat) (hproduct : ids .product = (s.db 0).ids .product)
    (huser : ids .user = (s.db 0).ids .user) : ∀ c ∈ offerConstraints, c.rule.Holds ids (unlinked s) := by
  intro c hc
  have hids : c.rule.Holds ids s.offers := by
    apply (s.offers_valid 0 c hc).congr
    intro target column hrule
    rcases offer_targets c hc target column hrule with rfl | rfl
    · exact hproduct
    · exact huser
  exact (respects_linked c hc).holds_map hids fun o _ => ⟨none, o.updatedAt, rfl⟩

theorem linked_some {r r' : Offer} (hr : r ∈ unlinked s) (h : linked (variantRows now s) r = some r') :
    ∃ v ∈ variantRows now s, r' = { r with variantId := some v.id } := by
  obtain ⟨o, ho, rfl⟩ := mem_unlinked.mp hr
  obtain ⟨v, hv, _, _, hlinked⟩ := linked_unlinked now ho
  rw [hlinked] at h
  exact ⟨v, hv, (Option.some.inj h).symm⟩

theorem variant_uint {v : ProductVariant} (hv : v ∈ variantRows now s) : uint v.id = true := by
  obtain ⟨o, _, id, hpos, hle, rfl⟩ := mem_variantRows hv
  have hcount := offers_length s
  show uint id = true
  simp only [uint, Bool.and_eq_true, decide_eq_true_eq]
  omega

theorem renameOffer_ok : run renameOffer (withVariants now plan s) = .ok { withVariants now plan s with
    offers := some (sellerOfferTable now (s.next .offer) sellerOfferColumns sellerOfferConstraints s.offers) } := rfl

/-- The update of the offers' variants goes through in any order. -/
theorem linking_ok : (sellerOfferTable now (s.next .offer) (sellerOfferColumns ++ ["variantId"])
      (sellerOfferConstraints ++ [variantIdUint]) (unlinked s)).update
      (offersAt now plan s (sellerOfferConstraints ++ [variantIdUint]) (unlinked s)).ids Offer.id
      (linked (variantRows now s)) (plan.linking ((unlinked s).map Offer.id)) =
    .ok (sellerOfferTable now (s.next .offer) (sellerOfferColumns ++ ["variantId"])
      (sellerOfferConstraints ++ [variantIdUint]) (linkedRows now s)) := by
  have hkey : ∀ r r' : Offer, linked (variantRows now s) r = some r' → r'.id = r.id := by
    intro r r' h
    obtain ⟨v, _, rfl⟩ := Option.map_eq_some_iff.mp h
    rfl
  apply Table.update_all (plan.linking_perm _) _ hkey
  · intro visited r hr r' hchange c hc
    obtain ⟨v, hv, rfl⟩ := linked_some hr hchange
    rcases List.mem_append.mp hc with hc | hc
    · obtain ⟨old, hold, _, hrule⟩ := renamed_rule hc
      have hholds := holds_linked (s := s) (offersAt now plan s (sellerOfferConstraints ++ [variantIdUint])
        (unlinked s)).ids rfl rfl old hold
      rw [hrule]
      apply (respects_linked old hold).admits hholds hr ⟨some v.id, now, rfl⟩
      intro other' hother'
      obtain ⟨other, hother, hne, hcase⟩ := Table.mem_others hother'
      refine ⟨other, hother, hne, ?_⟩
      rcases hcase with rfl | ⟨new, hnew, rfl⟩
      · exact ⟨_, _, rfl⟩
      · obtain ⟨v', _, rfl⟩ := linked_some hother hnew
        exact ⟨some v'.id, now, rfl⟩
    · obtain rfl := List.mem_singleton.mp hc
      exact variant_uint hv
  · show ((unlinked s).map Offer.id).Nodup
    rw [unlinked_ids]
    exact (facts s).ids

/-- Linking the offers to their variants always succeeds. -/
theorem linkVariant_ok : run (linkVariant plan) { withVariants now plan s with
      offers := some (sellerOfferTable now (s.next .offer) sellerOfferColumns sellerOfferConstraints s.offers) } =
    .ok (offersAt now plan s linkedConstraints (linkedRows now s)) := by
  have hcolumn : run ((linkVariant plan).take 1) { withVariants now plan s with
      offers := some (sellerOfferTable now (s.next .offer) sellerOfferColumns sellerOfferConstraints s.offers) } =
      .ok (offersAt now plan s (sellerOfferConstraints ++ [variantIdUint]) (unlinked s)) := rfl
  have hnotNull : variantIdNotNull.rule.Holds (offersAt now plan s (sellerOfferConstraints ++ [variantIdUint])
      (linkedRows now s)).ids (linkedRows now s) := by
    intro o' ho'
    obtain ⟨o, _, v, _, _, _, rfl⟩ := mem_linkedRows ho'
    rfl
  have hfkey : variantIdFkey.rule.Holds (offersAt now plan s (sellerOfferConstraints ++ [variantIdUint] ++
      [variantIdNotNull]) (linkedRows now s)).ids (linkedRows now s) := by
    intro o' ho'
    obtain ⟨o, _, v, hv, _, _, rfl⟩ := mem_linkedRows ho'
    exact decide_eq_true (List.mem_map_of_mem hv)
  rw [← List.take_append_drop 1 (linkVariant plan), run_append_ok hcolumn]
  have hupdate : offers.alter "SellerOffer" (fun db => Table.update db.ids Offer.id (linked (rowsOf db.variants))
      (plan.linking ((rowsOf db.offers).map Offer.id)))
      (offersAt now plan s (sellerOfferConstraints ++ [variantIdUint]) (unlinked s)) =
      .ok (offersAt now plan s (sellerOfferConstraints ++ [variantIdUint]) (linkedRows now s)) :=
    alter_ok rfl rfl linking_ok
  have hset : offers.alter "SellerOffer" (fun db => Table.addConstraint db.ids variantIdNotNull)
      (offersAt now plan s (sellerOfferConstraints ++ [variantIdUint]) (linkedRows now s)) =
      .ok (offersAt now plan s (sellerOfferConstraints ++ [variantIdUint] ++ [variantIdNotNull]) (linkedRows now s)) :=
    alter_ok rfl rfl (addConstraint_ok rfl hnotNull)
  have hadd : offers.alter "SellerOffer" (fun db => Table.addConstraint db.ids variantIdFkey)
      (offersAt now plan s (sellerOfferConstraints ++ [variantIdUint] ++ [variantIdNotNull]) (linkedRows now s)) =
      .ok (offersAt now plan s linkedConstraints (linkedRows now s)) :=
    alter_ok rfl rfl (addConstraint_ok rfl hfkey)
  exact (run_cons_ok hupdate).trans ((run_cons_ok hset).trans ((run_cons_ok hadd).trans (run_nil _)))

end

end MarketplaceApi.Migrations.Split
