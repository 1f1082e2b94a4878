import Mathlib.Data.List.InsertIdx
import MarketplaceApi.Migrations.SplitSellers

/-!
# What the split preserves

Every offer and every order line comes through the split, whatever Postgres chooses, exactly if
the slugs fit and the old and new seller ids of a shared SKU are apart.
-/
namespace MarketplaceApi.Migrations.Split

open Sql

section
variable (now : Nat) (plan : Plan) (s : State)

def keptColumns : List String := (sellerOfferColumns ++ ["variantId"]).filter fun column => column ≠ "productId"

def keptConstraints : List (Constraint TableId Offer) :=
  ((remapConstraints ++ [sellerIdFkey] ++ [sellerIdVariantId]).filter fun c =>
    c.name ≠ "ProductOffer_productId_fkey").filter fun c => "productId" ∉ c.columns

def keptRows : List Offer := (remappedRows now plan s).map fun o => { o with productId := none }

def withOffers : Db :=
  { withVariants now plan s with
    offers := some (sellerOfferTable now (s.next .offer) keptColumns keptConstraints (keptRows now plan s)) }

def movedConstraints : List (Constraint TableId OrderProduct) :=
  (lineConstraints.filter fun c => c.name ≠ "OrderProduct_productOfferId_fkey").map fun c =>
    { c with columns := c.columns.map fun column => if column = "productOfferId" then "offerId" else column }

def lineTable (constraints : List (Constraint TableId OrderProduct)) : Table TableId OrderProduct :=
  ⟨"OrderProduct", ["orderId", "offerId", "quantity", "price", "discountPrice"], constraints, [], 0, s.lines⟩

def offerIdFkey : Constraint TableId OrderProduct :=
  ⟨"OrderProduct_offerId_fkey", ["offerId"], .references .offer fun l => some l.offerId⟩

def keptProducts : Table TableId Product :=
  ⟨"Product", ["id"],
    ((productConstraints.filter fun c => c.name ≠ "Product_slug_format").filter fun c =>
      c.name ≠ "Product_slug_key").filter fun c => "slug" ∉ c.columns,
    [], s.next .product, s.products.map fun p => { p with slug := none }⟩

/-- The database after the migration. -/
def after : Db :=
  { withOffers now plan s with
    lines := some (lineTable s (movedConstraints ++ [offerIdFkey])), products := some (keptProducts s) }

end

section
variable {now : Nat} {plan : Plan} {s : State} {o o' : Offer}

theorem keptRows_ids : (keptRows now plan s).map Offer.id = s.offers.map Offer.id := by
  rw [← linkedRows_ids now s]
  unfold keptRows remappedRows
  rw [List.map_map, List.map_map]
  apply List.map_congr_left
  intro o ho
  obtain ⟨x, _, _, hremapped⟩ := remapped_linked now plan ho
  simp only [Function.comp_apply, hremapped, Option.elim_some]

theorem lines_offer (s : State) : ∀ l ∈ s.lines, l.offerId ∈ s.offers.map Offer.id := by
  have hlines := s.lines_valid 0
  unfold Table.Valid Rows.lineTable lineConstraints at hlines
  simp only [List.forall_mem_cons, Rule.Holds] at hlines
  intro l hl
  exact of_decide_eq_true (hlines.2.2.1 l hl)

/-- The old columns can always be dropped and the order lines moved. -/
theorem dropProduct_ok :
    run dropProduct (offersAt now plan s (remapConstraints ++ [sellerIdFkey] ++ [sellerIdVariantId])
      (remappedRows now plan s)) = .ok (after now plan s) := by
  have hdrop : run (dropProduct.take 4)
      (offersAt now plan s (remapConstraints ++ [sellerIdFkey] ++ [sellerIdVariantId]) (remappedRows now plan s)) =
      .ok { withOffers now plan s with lines := some (lineTable s movedConstraints) } := rfl
  have hfkey : offerIdFkey.rule.Holds
      (Db.ids { withOffers now plan s with lines := some (lineTable s movedConstraints) }) s.lines := by
    intro l hl
    have hin : l.offerId ∈ (keptRows now plan s).map Offer.id := by
      rw [keptRows_ids]
      exact lines_offer s l hl
    exact decide_eq_true hin
  have hadd : lines.alter "OrderProduct" (fun db => Table.addConstraint db.ids offerIdFkey)
      { withOffers now plan s with lines := some (lineTable s movedConstraints) } =
      .ok { withOffers now plan s with lines := some (lineTable s (movedConstraints ++ [offerIdFkey])) } :=
    alter_ok rfl rfl (addConstraint_ok rfl hfkey)
  have hslug : run (dropProduct.drop 5)
      { withOffers now plan s with lines := some (lineTable s (movedConstraints ++ [offerIdFkey])) } =
      .ok (after now plan s) := rfl
  rw [← List.take_append_drop 4 dropProduct, run_append_ok hdrop]
  exact (run_cons_ok hadd).trans hslug

theorem up_ok (hslugs : SlugsFit s) (hsellers : SellersApart s) :
    run (up now plan) (s.db now) = .ok (after now plan s) := by
  unfold up
  rw [List.append_assoc, List.append_assoc, List.append_assoc, List.append_assoc, run_append_ok createSeller_ok,
    run_append_ok (createVariant_ok hslugs), run_append_ok renameOffer_ok, run_append_ok linkVariant_ok,
    run_append_ok (remapSeller_ok hsellers)]
  exact dropProduct_ok

theorem preserves_after (now : Nat) (plan : Plan) (s : State) : Preserves s (after now plan s) := by
  refine ⟨?_, variantRows_ids now s, sellerRows_ids now plan s, rfl⟩
  show List.Forall₂ (Kept (after now plan s)) s.offers (keptRows now plan s)
  unfold keptRows remappedRows linkedRows unlinked
  rw [List.map_map, List.map_map, List.map_map, List.forall₂_map_right_iff, List.forall₂_same]
  intro o ho
  obtain ⟨v, hv, hproduct, _, hlinked⟩ := linked_unlinked now ho
  have hin : { o with variantId := some v.id, updatedAt := now } ∈ linkedRows now s := by
    unfold linkedRows
    rw [List.mem_map]
    refine ⟨{ o with variantId := none }, mem_unlinked.mpr ⟨o, ho, rfl⟩, ?_⟩
    rw [hlinked]
    rfl
  obtain ⟨x, hx, huser, hremapped⟩ := remapped_linked now plan hin
  simp only [Function.comp_apply, hlinked, Option.elim_some, hremapped]
  refine ⟨rfl, rfl, rfl, rfl, rfl, rfl, rfl, ⟨v, hv, rfl, ?_⟩, ⟨x, hx, rfl, huser.symm⟩⟩
  rw [hproduct]
  exact (productOf_spec ho).2.1

/-- A list with one of its elements moved to a place. -/
def placed (k a : Nat) (l : List Nat) : List Nat :=
  if a ∈ l ∧ k < l.length then (l.erase a).insertIdx k a else l

theorem placed_perm (k a : Nat) (l : List Nat) : (placed k a l).Perm l := by
  unfold placed
  split
  · rename_i h
    have hlength : k ≤ (l.erase a).length := by
      rw [List.length_erase_of_mem h.1]
      omega
    exact (List.perm_insertIdx a (l.erase a) hlength).trans (List.perm_cons_erase h.1).symm
  · exact List.Perm.refl l

theorem placed_getElem? {k a : Nat} {l : List Nat} (ha : a ∈ l) (hk : k < l.length) : (placed k a l)[k]? = some a := by
  have hlength : k ≤ (l.erase a).length := by
    rw [List.length_erase_of_mem ha]
    omega
  unfold placed
  rw [if_pos ⟨ha, hk⟩, List.getElem?_insertIdx_self, if_pos hlength]

theorem placed_first {a : Nat} {l : List Nat} (ha : a ∈ l) : placed 0 a l = a :: l.erase a := by
  unfold placed
  rw [if_pos ⟨ha, List.length_pos_of_mem ha⟩, List.insertIdx_zero]

/-- The first offer's seller is given the second's id, and the first is mapped first. -/
def colliding (o o' : Offer) : Plan where
  distinct := placed (o'.sellerId - 1) o.sellerId
  linking := id
  remapping := placed 0 o.id
  distinct_perm := placed_perm _ _
  linking_perm := List.Perm.refl
  remapping_perm := placed_perm _ _

theorem colliding_seller (now : Nat) (ho : o ∈ s.offers) (ho' : o' ∈ s.offers)
    (hle : o'.sellerId ≤ (sellersOf s.offers).length) :
    ⟨o'.sellerId, o.sellerId, now, now, none⟩ ∈ sellerRows now (colliding o o') s := by
  have hpos : 0 < o'.sellerId := by
    have huint := (facts s).sellerId o' ho'
    simp only [uint, Bool.and_eq_true, decide_eq_true_eq] at huint
    exact huint.1
  have hin : o.sellerId ∈ sellersOf s.offers := List.mem_dedup.mpr (List.mem_map_of_mem ho)
  have hlt : o'.sellerId - 1 < (sellersOf s.offers).length := by omega
  have hplaced : ((colliding o o').distinct (sellersOf s.offers))[o'.sellerId - 1]? = some o.sellerId :=
    placed_getElem? hin hlt
  have hid : 1 + (o'.sellerId - 1) = o'.sellerId := by omega
  apply List.mem_of_getElem? (i := o'.sellerId - 1)
  unfold sellerRows
  rw [Table.numbered_getElem?, List.getElem?_map, hplaced, hid]
  rfl

/-- A new seller id that is the old one of another offer of the SKU breaks the update. -/
theorem remapping_error (now : Nat) (ho : o ∈ s.offers) (ho' : o' ∈ s.offers) (hne : o.id ≠ o'.id)
    (hsku : o.sku = o'.sku) (hle : o'.sellerId ≤ (sellersOf s.offers).length) :
    ∃ e, (sellerOfferTable now (s.next .offer) (sellerOfferColumns ++ ["variantId"]) remapConstraints
      (linkedRows now s)).update (offersAt now (colliding o o') s remapConstraints (linkedRows now s)).ids Offer.id
      (remapped (sellerRows now (colliding o o') s)) ((colliding o o').remapping ((linkedRows now s).map Offer.id)) =
        .error e := by
  have hrow : ∀ p ∈ s.offers, ∃ r ∈ linkedRows now s, r.id = p.id ∧ r.sellerId = p.sellerId ∧ r.sku = p.sku := by
    intro p hp
    obtain ⟨v, _, _, _, hlinked⟩ := linked_unlinked now hp
    refine ⟨{ p with variantId := some v.id, updatedAt := now },
      List.mem_map.mpr ⟨_, mem_unlinked.mpr ⟨p, hp, rfl⟩, ?_⟩, rfl, rfl, rfl⟩
    rw [hlinked]
    rfl
  obtain ⟨r, hr, hid, hseller, hsku₁⟩ := hrow o ho
  obtain ⟨r', hr', hid', hseller', hsku₂⟩ := hrow o' ho'
  have hnodup : ((linkedRows now s).map Offer.id).Nodup := by
    rw [linkedRows_ids]
    exact (facts s).ids
  obtain ⟨x, hx, huser, hremapped⟩ := remapped_linked now (colliding o o') hr
  have hxid : x.id = o'.sellerId := by
    have husers : ((sellerRows now (colliding o o') s).map Seller.userId).Nodup := by
      rw [sellerRows_userIds, ((colliding o o').distinct_perm _).nodup_iff]
      exact List.nodup_dedup _
    have heq := List.inj_on_of_nodup_map husers hx (colliding_seller now ho ho' hle) (huser.trans hseller)
    rw [heq]
  have hfirst : (colliding o o').remapping ((linkedRows now s).map Offer.id) =
      r.id :: ((linkedRows now s).map Offer.id).erase o.id := by
    rw [hid]
    apply placed_first
    rw [← hid]
    exact List.mem_map_of_mem hr
  have hc : ⟨"SellerOffer_sellerId_sellerSku", ["sellerId", "sellerSku"], sellerSku⟩ ∈ remapConstraints := by
    unfold remapConstraints linkedConstraints sellerOfferConstraints offerConstraints
    exact List.mem_filter.mpr ⟨by simp [renamedName, sellerSku], rfl⟩
  rw [hfirst]
  apply Table.update_error hnodup hr hremapped hc
  have hother : r' ∈ (linkedRows now s).filter fun other => other.id ≠ r.id := by
    rw [List.mem_filter, hid, hid']
    exact ⟨hr', decide_eq_true hne.symm⟩
  apply List.all_eq_false.mpr
  refine ⟨r', hother, ?_⟩
  have hsame : r'.sellerId = x.id ∧ r'.sku = r.sku := by
    rw [hseller', hxid, hsku₁, hsku₂]
    exact ⟨rfl, hsku.symm⟩
  show ¬ (!(decide (r'.sellerId = x.id) && decide (r'.sku = r.sku))) = true
  simp [hsame]

theorem remapSeller_error (now : Nat) (ho : o ∈ s.offers) (ho' : o' ∈ s.offers) (hne : o.id ≠ o'.id)
    (hsku : o.sku = o'.sku) (hle : o'.sellerId ≤ (sellersOf s.offers).length) :
    ∃ e, run (remapSeller (colliding o o')) (offersAt now (colliding o o') s linkedConstraints (linkedRows now s)) =
      .error e := by
  have hdrop : run ((remapSeller (colliding o o')).take 1) (offersAt now (colliding o o') s linkedConstraints
      (linkedRows now s)) = .ok (offersAt now (colliding o o') s remapConstraints (linkedRows now s)) := rfl
  obtain ⟨e, he⟩ := remapping_error now ho ho' hne hsku hle
  rw [← List.take_append_drop 1 (remapSeller _), run_append_ok hdrop]
  have hupdate : offers.alter "SellerOffer" (fun db => Table.update db.ids Offer.id (remapped (rowsOf db.sellers))
      ((colliding o o').remapping ((rowsOf db.offers).map Offer.id)))
      (offersAt now (colliding o o') s remapConstraints (linkedRows now s)) = .error e := alter_error rfl rfl he
  exact ⟨e, run_cons_error hupdate⟩

theorem up_error (now : Nat) (h : SlugsFit s) (ho : o ∈ s.offers) (ho' : o' ∈ s.offers) (hne : o.id ≠ o'.id)
    (hsku : o.sku = o'.sku) (hle : o'.sellerId ≤ (sellersOf s.offers).length) :
    ∃ e, run (up now (colliding o o')) (s.db now) = .error e := by
  obtain ⟨e, he⟩ := remapSeller_error now ho ho' hne hsku hle
  refine ⟨e, ?_⟩
  unfold up
  rw [List.append_assoc, List.append_assoc, List.append_assoc, List.append_assoc, run_append_ok createSeller_ok,
    run_append_ok (createVariant_ok h), run_append_ok renameOffer_ok, run_append_ok linkVariant_ok]
  exact run_append_error he

/-- The split preserves every offer and every order line, whatever order the sellers are numbered and
the rows are visited in, exactly if the slugs fit and the old and new seller ids are apart. -/
theorem split_preserves_iff (now : Nat) (s : State) :
    (∀ plan, ∃ db, run (up now plan) (s.db now) = .ok db ∧ Preserves s db) ↔ SlugsFit s ∧ SellersApart s := by
  constructor
  · intro h
    have hslugs : SlugsFit s := by
      by_contra hnot
      obtain ⟨db, hdb, _⟩ := h ⟨id, id, id, List.Perm.refl, List.Perm.refl, List.Perm.refl⟩
      obtain ⟨e, he⟩ := createVariant_error hnot
      unfold up at hdb
      rw [List.append_assoc, List.append_assoc, List.append_assoc, List.append_assoc, run_append_ok createSeller_ok,
        run_append_error he] at hdb
      cases hdb
    refine ⟨hslugs, ?_⟩
    intro o ho o' ho' hne hsku
    by_contra hle
    obtain ⟨db, hdb, _⟩ := h (colliding o o')
    obtain ⟨e, he⟩ := up_error now hslugs ho ho' hne hsku (Nat.le_of_not_lt hle)
    rw [he] at hdb
    cases hdb
  · intro h plan
    exact ⟨_, up_ok h.1 h.2, preserves_after now plan s⟩

end

/-- Two sellers, whose user ids are 1 and 2, offer a product under one SKU. -/
def sharedRows : Rows where
  users := [⟨1⟩, ⟨2⟩]
  products := [⟨1, some "kettle"⟩]
  offers := [⟨1, some 1, 1, "KETTLE", 1000, .UAH, none, 5, 0, 0, none, none⟩,
    ⟨2, some 1, 2, "KETTLE", 1100, .UAH, none, 5, 0, 0, none, none⟩]
  lines := []
  next := fun _ => 3

theorem sharedRows_valid : (∀ c ∈ productConstraints, c.rule.Holds (sharedRows.db 0).ids sharedRows.products) ∧
    (∀ c ∈ offerConstraints, c.rule.Holds (sharedRows.db 0).ids sharedRows.offers) ∧
    ∀ c ∈ lineConstraints, c.rule.Holds (sharedRows.db 0).ids sharedRows.lines := by
  decide +kernel

def sharedSku : State where
  toRows := sharedRows
  products_valid := fun _ => sharedRows_valid.1
  offers_valid := fun _ => sharedRows_valid.2.1
  lines_valid := fun _ => sharedRows_valid.2.2

/-- The first offer cannot take the id 2 for its seller while the second still has it. -/
theorem split_preserves_refuted :
    ¬ ∀ plan, ∃ db, run (up 0 plan) (sharedSku.db 0) = .ok db ∧ Preserves sharedSku db := by
  intro h
  have hslugs : SlugsFit sharedSku := by
    unfold SlugsFit
    decide +kernel
  have hfirst : ⟨1, some 1, 1, "KETTLE", 1000, .UAH, none, 5, 0, 0, none, none⟩ ∈ sharedSku.offers := by
    decide +kernel
  have hsecond : ⟨2, some 1, 2, "KETTLE", 1100, .UAH, none, 5, 0, 0, none, none⟩ ∈ sharedSku.offers := by
    decide +kernel
  have hle : 2 ≤ (sellersOf sharedSku.offers).length := by
    decide +kernel
  obtain ⟨e, he⟩ := up_error 0 hslugs hfirst hsecond (by decide) rfl hle
  obtain ⟨db, hdb, _⟩ := h _
  rw [he] at hdb
  cases hdb

end MarketplaceApi.Migrations.Split
