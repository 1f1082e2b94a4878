import MarketplaceApi.Migrations.SplitOffers

/-!
# Sellers through the split

The update that maps the seller ids, while a seller's SKUs stay unique at every row. It goes
through if no old seller id of a shared SKU is one of the new ids; otherwise the new sellers can
be numbered so that the first offer visited takes the id of another seller of its SKU.
-/
namespace MarketplaceApi.Migrations.Split

open Sql

section
variable {now : Nat} {plan : Plan} {s : State} {o o' : Offer}

theorem holds_linkedRows (now : Nat) (s : State) (ids : TableId → List Nat)
    (hproduct : ids .product = (s.db 0).ids .product) (huser : ids .user = (s.db 0).ids .user) :
    ∀ c ∈ offerConstraints, c.rule.Holds ids (linkedRows now s) := by
  intro c hc
  apply (respects_linked c hc).holds_map (holds_linked ids hproduct huser c hc)
  intro o ho
  cases hlinked : linked (variantRows now s) o with
  | none => exact ⟨_, _, rfl⟩
  | some o' =>
    obtain ⟨v, _, rfl⟩ := linked_some ho hlinked
    exact ⟨some v.id, now, rfl⟩

/-- The seller an offer is mapped to. -/
theorem seller_found (now : Nat) (plan : Plan) (ho : o ∈ s.offers) : ∃ x ∈ sellerRows now plan s,
    (sellerRows now plan s).find? (fun x => x.userId = o.sellerId) = some x ∧ x.userId = o.sellerId := by
  cases hfound : (sellerRows now plan s).find? fun x => x.userId = o.sellerId with
  | none =>
    have hin : o.sellerId ∈ (sellerRows now plan s).map Seller.userId := by
      rw [sellerRows_userIds]
      exact mem_sellersOf.mpr ⟨o, ho, rfl⟩
    obtain ⟨x, hx, heq⟩ := List.mem_map.mp hin
    have hnone := List.find?_eq_none.mp hfound x hx
    exact absurd (decide_eq_true heq) hnone
  | some x => exact ⟨x, List.mem_of_find?_eq_some hfound, rfl, by simpa using List.find?_some hfound⟩

theorem remapped_some {r r' : Offer} (h : remapped (sellerRows now plan s) r = some r') :
    ∃ x ∈ sellerRows now plan s, x.userId = r.sellerId ∧ r' = { r with sellerId := x.id } := by
  obtain ⟨x, hfound, rfl⟩ := Option.map_eq_some_iff.mp h
  exact ⟨x, List.mem_of_find?_eq_some hfound, by simpa using List.find?_some hfound, rfl⟩

theorem remapped_linked (now : Nat) (plan : Plan) (hr : o' ∈ linkedRows now s) : ∃ x ∈ sellerRows now plan s,
    x.userId = o'.sellerId ∧ remapped (sellerRows now plan s) o' = some { o' with sellerId := x.id } := by
  obtain ⟨o, ho, v, _, _, _, rfl⟩ := mem_linkedRows hr
  obtain ⟨x, hx, hfound, huser⟩ := seller_found now plan ho
  refine ⟨x, hx, huser, ?_⟩
  unfold remapped
  rw [hfound]
  rfl

theorem seller_uint {x : Seller} (hx : x ∈ sellerRows now plan s) : uint x.id = true := by
  obtain ⟨o, _, id, hpos, hle, rfl⟩ := mem_sellerRows hx
  have hcount := sellersOf_length s
  show uint id = true
  simp only [uint, Bool.and_eq_true, decide_eq_true_eq]
  omega

theorem seller_le {x : Seller} (hx : x ∈ sellerRows now plan s) : x.id ≤ (sellersOf s.offers).length := by
  obtain ⟨o, _, id, _, hle, rfl⟩ := mem_sellerRows hx
  exact hle

theorem linkedRows_pairwise (now : Nat) (s : State) : (linkedRows now s).Pairwise fun o o' => o.id ≠ o'.id := by
  have hnodup := (facts s).ids
  rw [← linkedRows_ids now s, List.Nodup, List.pairwise_map] at hnodup
  exact hnodup

theorem linkedRows_apart (ho : o ∈ linkedRows now s) (ho' : o' ∈ linkedRows now s) (hne : o.id ≠ o'.id)
    (hsku : o.sku = o'.sku) : o.sellerId ≠ o'.sellerId := by
  obtain ⟨a, ha, _, _, _, _, rfl⟩ := mem_linkedRows ho
  obtain ⟨b, hb, _, _, _, _, rfl⟩ := mem_linkedRows ho'
  exact (facts s).apart a ha b hb hne hsku

theorem linkedRows_beyond (h : SellersApart s) (ho : o ∈ linkedRows now s) (ho' : o' ∈ linkedRows now s)
    (hne : o.id ≠ o'.id) (hsku : o.sku = o'.sku) : (sellersOf s.offers).length < o'.sellerId := by
  obtain ⟨a, ha, _, _, _, _, rfl⟩ := mem_linkedRows ho
  obtain ⟨b, hb, _, _, _, _, rfl⟩ := mem_linkedRows ho'
  exact h a ha b hb hne hsku

/-- A row that takes its new seller id meets no other row of that seller and SKU, old or new. -/
theorem sellerSku_admits (h : SellersApart s) (ids : TableId → List Nat) (ho : o ∈ linkedRows now s) {x : Seller}
    (hx : x ∈ sellerRows now plan s) (huser : x.userId = o.sellerId) {others : List Offer}
    (hothers : ∀ other' ∈ others, ∃ other ∈ linkedRows now s, other.id ≠ o.id ∧ (other' = other ∨
      ∃ new, remapped (sellerRows now plan s) other = some new ∧ other' = { new with updatedAt := now })) :
    sellerSku.admits ids others { o with sellerId := x.id, updatedAt := now } = true := by
  apply List.all_eq_true.mpr
  intro other' hother'
  obtain ⟨other, hother, hne, hcase⟩ := hothers other' hother'
  have hfalse : ¬ (other'.sellerId = x.id ∧ other'.sku = o.sku) := by
    intro hsame
    rcases hcase with rfl | ⟨new, hnew, rfl⟩
    · have hbeyond := linkedRows_beyond h ho hother hne.symm hsame.2.symm
      have hle := seller_le hx
      omega
    · obtain ⟨y, hy, huser', rfl⟩ := remapped_some hnew
      have hxy : y = x := List.inj_on_of_nodup_map (sellerRows_ids now plan s) hy hx hsame.1
      apply linkedRows_apart hother ho hne hsame.2
      rw [← huser', ← huser, hxy]
  simp only [Bool.not_eq_true', Bool.and_eq_false_iff, decide_eq_false_iff_not]
  exact not_and_or.mp hfalse

/-- What the constraints are while the seller ids are mapped. -/
theorem remapConstraints_cases {c : Constraint TableId Offer} (hc : c ∈ remapConstraints) :
    (∃ old ∈ offerConstraints, old.name ≠ "ProductOffer_sellerId_fkey" ∧ c.rule = old.rule) ∨
      c = variantIdUint ∨ c = variantIdNotNull ∨ c = variantIdFkey := by
  obtain ⟨hin, hname⟩ := List.mem_filter.mp hc
  unfold linkedConstraints at hin
  simp only [List.mem_append, List.mem_singleton, or_assoc] at hin
  rcases hin with hin | hin
  · obtain ⟨old, hold, hrenamed, hrule⟩ := renamed_rule hin
    refine Or.inl ⟨old, hold, ?_, hrule⟩
    intro heq
    rw [heq] at hrenamed
    exact of_decide_eq_true hname hrenamed
  · exact Or.inr hin

theorem respects_variantId {c : Constraint TableId Offer}
    (hc : c = variantIdUint ∨ c = variantIdNotNull ∨ c = variantIdFkey) : c.rule.Respects Remapped := by
  rcases hc with rfl | rfl | rfl
  all_goals
    rintro r _ ⟨_, _, rfl⟩
    rfl

theorem holds_variantId {c : Constraint TableId Offer}
    (hc : c = variantIdUint ∨ c = variantIdNotNull ∨ c = variantIdFkey) (ids : TableId → List Nat)
    (hids : ids .variant = (variantRows now s).map ProductVariant.id) : c.rule.Holds ids (linkedRows now s) := by
  rcases hc with rfl | rfl | rfl
  all_goals
    intro o' ho'
    obtain ⟨o, _, v, hv, _, _, rfl⟩ := mem_linkedRows ho'
  · exact variant_uint hv
  · rfl
  · have hin : v.id ∈ ids .variant := by
      rw [hids]
      exact List.mem_map_of_mem hv
    exact decide_eq_true hin

/-- The update of the seller ids goes through in any order. -/
theorem remapping_ok (h : SellersApart s) :
    (sellerOfferTable now (s.next .offer) (sellerOfferColumns ++ ["variantId"]) remapConstraints
      (linkedRows now s)).update (offersAt now plan s remapConstraints (linkedRows now s)).ids Offer.id
      (remapped (sellerRows now plan s)) (plan.remapping ((linkedRows now s).map Offer.id)) =
    .ok (sellerOfferTable now (s.next .offer) (sellerOfferColumns ++ ["variantId"]) remapConstraints
      (remappedRows now plan s)) := by
  have hkey : ∀ r r' : Offer, remapped (sellerRows now plan s) r = some r' → r'.id = r.id := by
    intro r r' hr
    obtain ⟨x, _, _, rfl⟩ := remapped_some hr
    rfl
  apply Table.update_all (plan.remapping_perm _) _ hkey
  · intro visited r hr r' hchange c hc
    obtain ⟨x, hx, huser, rfl⟩ := remapped_some hchange
    have hrespects : ∀ rule : Rule TableId Offer, rule.Respects Remapped →
        rule.Holds (offersAt now plan s remapConstraints (linkedRows now s)).ids (linkedRows now s) →
        rule.admits (offersAt now plan s remapConstraints (linkedRows now s)).ids
          (((linkedRows now s).filter fun other => other.id ≠ r.id).map
            ((sellerOfferTable now (s.next .offer) (sellerOfferColumns ++ ["variantId"]) remapConstraints
              (linkedRows now s)).settled Offer.id (remapped (sellerRows now plan s)) visited))
          { r with sellerId := x.id, updatedAt := now } = true := by
      intro rule hrespects hholds
      apply hrespects.admits hholds hr ⟨x.id, now, rfl⟩
      intro other' hother'
      obtain ⟨other, hother, hne, hcase⟩ := Table.mem_others hother'
      refine ⟨other, hother, hne, ?_⟩
      rcases hcase with rfl | ⟨new, hnew, rfl⟩
      · exact ⟨_, _, rfl⟩
      · obtain ⟨y, _, _, rfl⟩ := remapped_some hnew
        exact ⟨y.id, now, rfl⟩
    rcases remapConstraints_cases hc with ⟨old, hold, hname, hrule⟩ | hvariant
    · rw [hrule]
      rcases respects_remapped old hold hname with hold' | hrule | hrule
      · exact hrespects _ hold' (holds_linkedRows now s (offersAt now plan s remapConstraints (linkedRows now s)).ids
          rfl rfl old hold)
      · rw [hrule]
        exact seller_uint hx
      · rw [hrule]
        exact sellerSku_admits h _ hr hx huser fun other' hother' => Table.mem_others hother'
    · exact hrespects _ (respects_variantId hvariant) (holds_variantId hvariant _ rfl)
  · show ((linkedRows now s).map Offer.id).Nodup
    rw [linkedRows_ids]
    exact (facts s).ids

def sellerIdFkey : Constraint TableId Offer :=
  ⟨"SellerOffer_sellerId_fkey", ["sellerId"], .references .seller fun o => some o.sellerId⟩

def sellerIdVariantId : Constraint TableId Offer :=
  ⟨"SellerOffer_sellerId_variantId", ["sellerId", "variantId"],
    .unique fun o o' => o.sellerId = o'.sellerId && equal o.variantId o'.variantId⟩

theorem mem_remappedRows (h : o' ∈ remappedRows now plan s) : ∃ o ∈ linkedRows now s, ∃ x ∈ sellerRows now plan s,
    x.userId = o.sellerId ∧ o' = { o with sellerId := x.id, updatedAt := now } := by
  obtain ⟨o, ho, rfl⟩ := List.mem_map.mp h
  obtain ⟨x, hx, huser, hremapped⟩ := remapped_linked now plan ho
  refine ⟨o, ho, x, hx, huser, ?_⟩
  rw [hremapped]
  rfl

theorem linkedRows_variantId (ho : o ∈ linkedRows now s) (ho' : o' ∈ linkedRows now s) (hne : o.id ≠ o'.id) :
    equal o.variantId o'.variantId = false := by
  obtain ⟨a, ha, v, hv, _, hsku, rfl⟩ := mem_linkedRows ho
  obtain ⟨b, hb, w, hw, _, hsku', rfl⟩ := mem_linkedRows ho'
  apply equal_some
  intro heq
  obtain rfl := List.inj_on_of_nodup_map (variantRows_ids now s) hv hw heq
  rw [hsku] at hsku'
  exact hne (skuOf_inj (Option.some.inj hsku'))

theorem holds_sellerIdVariantId (ids : TableId → List Nat) :
    sellerIdVariantId.rule.Holds ids (remappedRows now plan s) := by
  show (remappedRows now plan s).Pairwise _
  unfold remappedRows
  rw [List.pairwise_map]
  apply (linkedRows_pairwise now s).imp_of_mem
  intro a b ha hb hne
  obtain ⟨x, _, _, hx⟩ := remapped_linked now plan ha
  obtain ⟨y, _, _, hy⟩ := remapped_linked now plan hb
  have hvariant := linkedRows_variantId ha hb hne
  rw [hx, hy]
  exact Bool.and_eq_false_imp.mpr fun _ => hvariant

/-- Mapping the offers to the new sellers succeeds if the old ids and the new ones are apart. -/
theorem remapSeller_ok (h : SellersApart s) :
    run (remapSeller plan) (offersAt now plan s linkedConstraints (linkedRows now s)) =
      .ok (offersAt now plan s (remapConstraints ++ [sellerIdFkey] ++ [sellerIdVariantId])
        (remappedRows now plan s)) := by
  have hdrop : run ((remapSeller plan).take 1) (offersAt now plan s linkedConstraints (linkedRows now s)) =
      .ok (offersAt now plan s remapConstraints (linkedRows now s)) := rfl
  have hfkey : sellerIdFkey.rule.Holds (offersAt now plan s remapConstraints (remappedRows now plan s)).ids
      (remappedRows now plan s) := by
    intro o' ho'
    obtain ⟨o, _, x, hx, _, rfl⟩ := mem_remappedRows ho'
    exact decide_eq_true (List.mem_map_of_mem hx)
  rw [← List.take_append_drop 1 (remapSeller plan), run_append_ok hdrop]
  have hupdate : offers.alter "SellerOffer" (fun db => Table.update db.ids Offer.id (remapped (rowsOf db.sellers))
      (plan.remapping ((rowsOf db.offers).map Offer.id))) (offersAt now plan s remapConstraints (linkedRows now s)) =
      .ok (offersAt now plan s remapConstraints (remappedRows now plan s)) := alter_ok rfl rfl (remapping_ok h)
  have hadd : offers.alter "SellerOffer" (fun db => Table.addConstraint db.ids sellerIdFkey)
      (offersAt now plan s remapConstraints (remappedRows now plan s)) =
      .ok (offersAt now plan s (remapConstraints ++ [sellerIdFkey]) (remappedRows now plan s)) :=
    alter_ok rfl rfl (addConstraint_ok rfl hfkey)
  have hunique : offers.alter "SellerOffer" (fun db => Table.addConstraint db.ids sellerIdVariantId)
      (offersAt now plan s (remapConstraints ++ [sellerIdFkey]) (remappedRows now plan s)) =
      .ok (offersAt now plan s (remapConstraints ++ [sellerIdFkey] ++ [sellerIdVariantId]) (remappedRows now plan s)) :=
    alter_ok rfl rfl (addConstraint_ok rfl (holds_sellerIdVariantId _))
  exact (run_cons_ok hupdate).trans ((run_cons_ok hadd).trans ((run_cons_ok hunique).trans (run_nil _)))

end

end MarketplaceApi.Migrations.Split
