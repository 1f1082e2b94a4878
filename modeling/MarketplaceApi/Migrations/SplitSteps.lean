import Mathlib.Data.List.Dedup
import MarketplaceApi.Migrations.Split
import MarketplaceApi.Sql.Write
import MarketplaceApi.Text.Digits

/-!
# The statements of the split

What each group of statements needs and what it leaves. The new sellers and variants go in if the
slugs made from the products fit their column; linking them to the offers always succeeds.
-/
namespace MarketplaceApi.Migrations.Split

open Sql Text

/-- The tables as they are between the groups of statements. -/
def sellerTable (now : Nat) (rows : List Seller) : Table TableId Seller :=
  ⟨"Seller", ["id", "userId", "createdAt", "updatedAt", "deletedAt"],
    sellerConstraints ++ [⟨"Seller_userId_fkey", ["userId"], .references .user fun s => some s.userId⟩],
    [⟨"Seller_setUpdatedAt", true, fun s => { s with updatedAt := now }⟩], 1 + rows.length, rows⟩

def variantTable (now : Nat) (rows : List ProductVariant) : Table TableId ProductVariant :=
  ⟨"ProductVariant", ["id", "productId", "sku", "barcode", "slug", "createdAt", "updatedAt", "deletedAt"],
    variantConstraints ++
      [⟨"ProductVariant_productId_fkey", ["productId"], .references .product fun v => some v.productId⟩],
    [⟨"ProductVariant_setUpdatedAt", true, fun v => { v with updatedAt := now }⟩], 1 + rows.length, rows⟩

def renamedName (name : String) : String :=
  if name = "ProductOffer_pkey" then "SellerOffer_pkey"
  else if name = "ProductOffer_sellerId_sku" then "SellerOffer_sellerId_sellerSku"
  else if name = "ProductOffer_sku_notBlank" then "SellerOffer_sellerSku_notBlank"
  else if name = "ProductOffer_discount_le" then "SellerOffer_discount_le"
  else if name = "ProductOffer_quantity_nonneg" then "SellerOffer_quantity_nonneg"
  else if name = "ProductOffer_deletedAt_ord" then "SellerOffer_deletedAt_ord"
  else name

def sellerOfferColumns : List String :=
  ["id", "productId", "sellerId", "sellerSku", "price", "currency", "discountPrice", "quantity", "createdAt",
    "updatedAt", "deletedAt"]

def sellerOfferConstraints : List (Constraint TableId Offer) :=
  offerConstraints.map fun c =>
    ⟨renamedName c.name, c.columns.map fun column => if column = "sku" then "sellerSku" else column, c.rule⟩

def sellerOfferTable (now next : Nat) (columns : List String) (constraints : List (Constraint TableId Offer))
    (rows : List Offer) : Table TableId Offer :=
  ⟨"SellerOffer", columns, constraints, [⟨"SellerOffer_setUpdatedAt", true, fun o => { o with updatedAt := now }⟩],
    next, rows⟩

def variantIdUint : Constraint TableId Offer := ⟨"variantId uint", ["variantId"], .check fun o => o.variantId.all uint⟩

def variantIdNotNull : Constraint TableId Offer :=
  ⟨"variantId NOT NULL", ["variantId"], .check fun o => o.variantId.isSome⟩

def variantIdFkey : Constraint TableId Offer :=
  ⟨"SellerOffer_variantId_fkey", ["variantId"], .references .variant Offer.variantId⟩

section
variable (now : Nat) (plan : Plan) (s : State)

def sellerRows : List Seller :=
  Table.numbered 1 ((plan.distinct (sellersOf s.offers)).map fun userId id => ⟨id, userId, now, now, none⟩)

def variantRows : List ProductVariant := Table.numbered 1 (variantsOf now s.offers s.products)

/-- The slug made for every offer fits its column. -/
def SlugsFit : Prop :=
  ∀ o ∈ s.offers, ∀ p ∈ s.products, o.productId = some p.id → ∀ slug, p.slug = some slug →
    slug.length + 2 + (toString o.id).length ≤ 120

def withSellers : Db := { s.db now with sellers := some (sellerTable now (sellerRows now plan s)) }

def withVariants : Db := { withSellers now plan s with variants := some (variantTable now (variantRows now s)) }

end

section
variable {now : Nat} {plan : Plan} {s : State} {o o' : Offer}

theorem slugFormat_append {opening : Bool} {cs rest : List Char} (h : slugFormat opening cs = true)
    (hrest : slugFormat false rest = true) : slugFormat opening (cs ++ rest) = true := by
  induction cs generalizing opening with
  | nil =>
    cases opening with
    | false => exact hrest
    | true => cases h
  | cons c cs ih =>
    rw [List.cons_append]
    unfold slugFormat at h ⊢
    split
    · rename_i hpart
      rw [if_pos hpart] at h
      exact ih h
    · rename_i hpart
      rw [if_neg hpart] at h
      rw [Bool.and_eq_true] at h ⊢
      exact ⟨h.1, ih h.2⟩

theorem slugFormat_digits (n : Nat) : slugFormat false (Nat.toDigits 10 n) = true := by
  have hall : ∀ ds : List Char, (∀ c ∈ ds, c.isDigit = true) → slugFormat false ds = true := by
    intro ds
    induction ds with
    | nil => exact fun _ => rfl
    | cons c ds ih =>
      intro hds
      have hc : c.isDigit = true := hds c List.mem_cons_self
      unfold slugFormat
      rw [hc, Bool.or_true, if_pos rfl]
      exact ih fun x hx => hds x (List.mem_cons_of_mem _ hx)
  exact hall _ fun c hc => isDigit_toDigits hc

theorem slug_toList (slug : String) (n : Nat) :
    (slug ++ "-v" ++ toString n).toList = slug.toList ++ '-' :: 'v' :: Nat.toDigits 10 n := by
  rw [String.toList_append, String.toList_append, toString_nat, List.append_assoc]
  rfl

theorem slugFormat_slug {slug : String} (h : slugFormat true slug.toList = true) (n : Nat) :
    slugFormat true (slug ++ "-v" ++ toString n).toList = true := by
  rw [slug_toList]
  apply slugFormat_append h
  show (('-' : Char) = '-' && !false && slugFormat true ('v' :: Nat.toDigits 10 n)) = true
  exact slugFormat_digits n

theorem slug_injective {slug slug' : String} {m n : Nat}
    (h : slug ++ "-v" ++ toString m = slug' ++ "-v" ++ toString n) : m = n := by
  have hlist := congrArg String.toList h
  rw [slug_toList, slug_toList, List.append_cons, List.append_cons slug'.toList] at hlist
  exact toDigits_suffix rfl rfl hlist

theorem sku_toList (o : Offer) : (skuOf o).toList = "sku-".toList ++ Nat.toDigits 10 o.id := by
  unfold skuOf
  rw [String.toList_append, toString_nat]

theorem skuOf_inj (h : skuOf o = skuOf o') : o.id = o'.id := by
  have hlist := congrArg String.toList h
  rw [sku_toList, sku_toList] at hlist
  exact toDigits_injective (List.append_cancel_left hlist)

theorem skuOf_notBlank (o : Offer) : notBlank (skuOf o) = true := by
  unfold notBlank
  rw [sku_toList]
  rfl

/-- Ten digits are enough for an id. -/
theorem skuOf_length (h : uint o.id = true) : (skuOf o).length ≤ 64 := by
  have hlt : o.id < 10 ^ 10 := by
    simp only [uint, Bool.and_eq_true, decide_eq_true_eq] at h
    omega
  have hdigits : (Nat.toDigits 10 o.id).length ≤ 10 := (Nat.length_toDigits_le_iff (by decide) (by decide)).mpr hlt
  rw [← String.length_toList, sku_toList, List.length_append]
  have hprefix : "sku-".toList.length = 4 := rfl
  omega

theorem same_comm {α β : Type} [DecidableEq α] [DecidableEq β] (a a' : α) (b b' : β) :
    (decide (a = a') && decide (b = b')) = (decide (a' = a) && decide (b' = b)) := by
  rw [decide_eq_decide.mpr (@eq_comm _ a a'), decide_eq_decide.mpr (@eq_comm _ b b')]

/-- What the constraints say about the offers and products of a state. -/
structure Facts (s : State) : Prop where
  ids : (s.offers.map Offer.id).Nodup
  id : ∀ o ∈ s.offers, uint o.id = true
  productId : ∀ o ∈ s.offers, o.productId.all uint = true
  product : ∀ o ∈ s.offers, ∃ p ∈ s.products, o.productId = some p.id
  sellerId : ∀ o ∈ s.offers, uint o.sellerId = true
  seller : ∀ o ∈ s.offers, o.sellerId ∈ s.users.map User.id
  apart : ∀ o ∈ s.offers, ∀ o' ∈ s.offers, o.id ≠ o'.id → o.sku = o'.sku → o.sellerId ≠ o'.sellerId
  productIds : (s.products.map Product.id).Nodup
  slug : ∀ p ∈ s.products, ∃ slug, p.slug = some slug ∧ slugFormat true slug.toList = true

theorem facts (s : State) : Facts s := by
  have hoffers := s.offers_valid 0
  have hproducts := s.products_valid 0
  unfold Table.Valid Rows.offerTable offerConstraints at hoffers
  unfold Table.Valid Rows.productTable productConstraints at hproducts
  simp only [List.forall_mem_cons, Rule.Holds] at hoffers hproducts
  obtain ⟨hpkey, hid, huint, hnotNull, hseller, _, _, _, hunique, _, _, _, _, hproduct, huser, _⟩ := hoffers
  obtain ⟨hproductPkey, hslug, _, _, hformat, _⟩ := hproducts
  have hids : (s.offers.map Offer.id).Nodup := by
    rw [List.Nodup, List.pairwise_map]
    exact hpkey.imp fun h => of_decide_eq_false h
  refine ⟨hids, hid, huint, fun o ho => ?_, hseller, fun o ho => ?_, fun o ho o' ho' hne hsku heq => ?_, ?_,
    fun p hp => ?_⟩
  · have hsome := hnotNull o ho
    obtain ⟨productId, hp⟩ := Option.isSome_iff_exists.mp hsome
    have hin := hproduct o ho
    rw [hp] at hin
    have hmem : productId ∈ s.products.map Product.id := of_decide_eq_true hin
    obtain ⟨p, hpin, rfl⟩ := List.mem_map.mp hmem
    exact ⟨p, hpin, hp⟩
  · exact of_decide_eq_true (huser o ho)
  · have hsym : Std.Symm fun a b : Offer => (decide (a.sellerId = b.sellerId) && decide (a.sku = b.sku)) = false :=
      ⟨fun a b hab => (same_comm b.sellerId a.sellerId b.sku a.sku).trans hab⟩
    have hdiffer : o ≠ o' := by
      rintro rfl
      exact hne rfl
    have hfalse := hunique.forall ho ho' hdiffer
    simp [heq, hsku] at hfalse
  · rw [List.Nodup, List.pairwise_map]
    exact hproductPkey.imp fun h => of_decide_eq_false h
  · obtain ⟨slug, hs⟩ := Option.isSome_iff_exists.mp (hslug p hp)
    have hf := hformat p hp
    rw [hs] at hf
    exact ⟨slug, hs, hf⟩

theorem mem_sellersOf {userId : Nat} :
    userId ∈ plan.distinct (sellersOf s.offers) ↔ ∃ o ∈ s.offers, o.sellerId = userId := by
  rw [(plan.distinct_perm _).mem_iff]
  unfold sellersOf
  rw [List.mem_dedup, List.mem_map]

theorem sellers_length : (plan.distinct (sellersOf s.offers)).length = (sellersOf s.offers).length :=
  (plan.distinct_perm _).length_eq

theorem sellersOf_length (s : State) : (sellersOf s.offers).length < 2147483648 := by
  apply length_lt_of_uint (List.nodup_dedup _)
  intro n hn
  rw [List.mem_dedup, List.mem_map] at hn
  obtain ⟨o, ho, rfl⟩ := hn
  exact (facts s).sellerId o ho

theorem mem_sellerRows {x : Seller} (h : x ∈ sellerRows now plan s) : ∃ o ∈ s.offers, ∃ id, 0 < id ∧
    id ≤ (sellersOf s.offers).length ∧ x = ⟨id, o.sellerId, now, now, none⟩ := by
  obtain ⟨userId, huser, id, hpos, hlt, rfl⟩ := Table.mem_numbered h
  obtain ⟨o, ho, rfl⟩ := mem_sellersOf.mp huser
  rw [sellers_length] at hlt
  exact ⟨o, ho, id, by omega, by omega, rfl⟩

theorem sellerRows_ids (now : Nat) (plan : Plan) (s : State) : ((sellerRows now plan s).map Seller.id).Nodup := by
  unfold sellerRows
  rw [Table.numbered_ids Seller.id _ (fun _ _ => rfl)]
  exact List.nodup_range'

theorem sellerRows_userIds : (sellerRows now plan s).map Seller.userId = plan.distinct (sellersOf s.offers) := by
  unfold sellerRows
  rw [Table.numbered_map Seller.userId _ id (fun _ _ => rfl), List.map_id]

/-- The sellers are always made. -/
theorem createSeller_ok : run (createSeller now plan) (s.db now) = .ok (withSellers now plan s) := by
  have hddl : run ((createSeller now plan).take 3) (s.db now) =
      .ok { s.db now with sellers := some (sellerTable now []) } := rfl
  have hinsert : (sellerTable now []).insert (Db.ids { s.db now with sellers := some (sellerTable now []) })
      ((plan.distinct (sellersOf s.offers)).map fun userId id => ⟨id, userId, now, now, none⟩) =
        .ok (sellerTable now (sellerRows now plan s)) := by
    have hok : ∀ c ∈ (sellerTable now []).constraints, c.rule.Holds
        (Db.ids { s.db now with sellers := some (sellerTable now []) }) ([] ++ sellerRows now plan s) := by
      unfold sellerTable sellerConstraints
      simp only [List.forall_mem_append, List.forall_mem_cons, List.nil_append, Rule.Holds]
      have hcount := sellersOf_length s
      refine ⟨⟨fun x hx => ?_, fun x hx => ?_, ?_, fun x hx => ?_, ?_, List.forall_mem_nil _⟩,
        fun x hx => ?_, List.forall_mem_nil _⟩
      · obtain ⟨o, _, id, hpos, hle, rfl⟩ := mem_sellerRows hx
        simp only [uint, Bool.and_eq_true, decide_eq_true_eq]
        omega
      · obtain ⟨o, ho, id, _, _, rfl⟩ := mem_sellerRows hx
        exact (facts s).sellerId o ho
      · have hnodup : ((sellerRows now plan s).map Seller.userId).Nodup := by
          rw [sellerRows_userIds, (plan.distinct_perm _).nodup_iff]
          exact List.nodup_dedup _
        rw [List.Nodup, List.pairwise_map] at hnodup
        exact hnodup.imp fun hne => decide_eq_false hne
      · obtain ⟨o, _, id, _, _, rfl⟩ := mem_sellerRows hx
        rfl
      · have hnodup := sellerRows_ids now plan s
        rw [List.Nodup, List.pairwise_map] at hnodup
        exact hnodup.imp fun hne => decide_eq_false hne
      · obtain ⟨o, ho, id, _, _, rfl⟩ := mem_sellerRows hx
        exact decide_eq_true ((facts s).seller o ho)
    rw [Table.insert_ok hok, ← Table.numbered_length 1]
    rfl
  rw [← List.take_append_drop 3 (createSeller now plan), run_append_ok hddl]
  have halter : sellers.alter "Seller" (fun db => Table.insert db.ids
      ((plan.distinct (sellersOf (rowsOf db.offers))).map fun userId id => ⟨id, userId, now, now, none⟩))
      { s.db now with sellers := some (sellerTable now []) } = .ok (withSellers now plan s) :=
    alter_ok rfl rfl hinsert
  exact run_cons_ok halter

/-- The product an offer is joined with. -/
def productOf (s : State) (o : Offer) : Product :=
  (s.products.find? fun p => some p.id = o.productId).getD ⟨0, none⟩

theorem productOf_spec (ho : o ∈ s.offers) : productOf s o ∈ s.products ∧ o.productId = some (productOf s o).id ∧
    (s.products.filter fun p => some p.id = o.productId) = [productOf s o] := by
  obtain ⟨p, hp, hid⟩ := (facts s).product o ho
  have hfilter : (s.products.filter fun q => some q.id = o.productId) = [p] := by
    rw [hid]
    simp only [Option.some.injEq]
    exact filter_key (facts s).productIds hp
  have heq : productOf s o = p := by
    unfold productOf
    rw [← List.head?_filter, hfilter]
    rfl
  rw [heq]
  exact ⟨hp, hid, hfilter⟩

def makeVariant (now : Nat) (s : State) (o : Offer) (id : Nat) : ProductVariant :=
  ⟨id, (productOf s o).id, some (skuOf o), none, slugOf (productOf s o) o, now, now, none⟩

def orderedOffers (s : State) : List Offer := s.offers.insertionSort fun o o' => o.id ≤ o'.id

theorem mem_orderedOffers : o ∈ orderedOffers s ↔ o ∈ s.offers := (List.perm_insertionSort _ _).mem_iff

theorem orderedOffers_length (s : State) : (orderedOffers s).length = s.offers.length :=
  (List.perm_insertionSort _ _).length_eq

theorem orderedOffers_pairwise (s : State) : (orderedOffers s).Pairwise fun o o' => o.id ≠ o'.id := by
  have hperm : ((orderedOffers s).map Offer.id).Perm (s.offers.map Offer.id) := (List.perm_insertionSort _ _).map _
  have hnodup := hperm.nodup_iff.mpr (facts s).ids
  rw [List.Nodup, List.pairwise_map] at hnodup
  exact hnodup

theorem variantRows_eq (now : Nat) (s : State) :
    variantRows now s = Table.numbered 1 ((orderedOffers s).map (makeVariant now s)) := by
  unfold variantRows variantsOf
  rw [List.map_eq_flatMap]
  congr 1
  apply List.flatMap_congr
  intro o ho
  rw [(productOf_spec (mem_orderedOffers.mp ho)).2.2]
  rfl

theorem offers_length (s : State) : s.offers.length < 2147483648 := by
  rw [← List.length_map Offer.id]
  apply length_lt_of_uint (facts s).ids
  intro n hn
  obtain ⟨o, ho, rfl⟩ := List.mem_map.mp hn
  exact (facts s).id o ho

theorem mem_variantRows {v : ProductVariant} (h : v ∈ variantRows now s) :
    ∃ o ∈ s.offers, ∃ id, 0 < id ∧ id ≤ s.offers.length ∧ v = makeVariant now s o id := by
  rw [variantRows_eq] at h
  obtain ⟨o, ho, id, hpos, hlt, rfl⟩ := Table.mem_numbered h
  rw [orderedOffers_length] at hlt
  exact ⟨o, mem_orderedOffers.mp ho, id, by omega, by omega, rfl⟩

theorem variant_of_offer (now : Nat) (ho : o ∈ s.offers) : ∃ id, makeVariant now s o id ∈ variantRows now s := by
  rw [variantRows_eq]
  exact Table.numbered_mem (mem_orderedOffers.mpr ho) 1

theorem variantRows_ids (now : Nat) (s : State) : ((variantRows now s).map ProductVariant.id).Nodup := by
  rw [variantRows_eq, Table.numbered_ids ProductVariant.id _ (fun _ _ => rfl)]
  exact List.nodup_range'

theorem slugOf_spec (ho : o ∈ s.offers) : ∃ slug, (productOf s o).slug = some slug ∧
    slugOf (productOf s o) o = some (slug ++ "-v" ++ toString o.id) ∧ slugFormat true slug.toList = true := by
  obtain ⟨slug, hslug, hformat⟩ := (facts s).slug _ (productOf_spec ho).1
  refine ⟨slug, hslug, ?_, hformat⟩
  unfold slugOf
  rw [hslug]
  rfl

theorem slug_length (slug : String) (n : Nat) :
    (slug ++ "-v" ++ toString n).length = slug.length + 2 + (toString n).length := by
  rw [String.length_append, String.length_append]
  rfl

/-- The variants can be made if their slugs fit. -/
theorem variants_hold (h : SlugsFit s) : ∀ c ∈ (variantTable now []).constraints, c.rule.Holds
    (Db.ids { withSellers now plan s with variants := some (variantTable now []) }) ([] ++ variantRows now s) := by
  have hcount := offers_length s
  unfold variantTable variantConstraints
  simp only [List.forall_mem_append, List.forall_mem_cons, List.nil_append, Rule.Holds]
  have hunique : ∀ same : ProductVariant → ProductVariant → Bool, (∀ o ∈ s.offers, ∀ o' ∈ s.offers, o.id ≠ o'.id →
      ∀ m n, same (makeVariant now s o m) (makeVariant now s o' n) = false) →
      (variantRows now s).Pairwise fun v v' => same v v' = false := by
    intro same hsame
    rw [variantRows_eq]
    have hpair : (orderedOffers s).Pairwise fun o o' => o ∈ s.offers ∧ o' ∈ s.offers ∧ o.id ≠ o'.id :=
      (orderedOffers_pairwise s).imp_of_mem fun ho ho' hne =>
        ⟨mem_orderedOffers.mp ho, mem_orderedOffers.mp ho', hne⟩
    exact Table.numbered_pairwise hpair (fun o o' m n h => hsame o h.1 o' h.2.1 h.2.2 m n) 1
  refine ⟨⟨fun v hv => ?_, fun v hv => ?_, fun v hv => ?_, fun v hv => ?_, fun v hv => ?_, fun v hv => ?_,
    fun v hv => ?_, hunique _ ?_, hunique _ ?_, hunique _ ?_, fun v hv => ?_, fun v hv => ?_, fun v hv => ?_,
    fun v hv => ?_, ?_, List.forall_mem_nil _⟩, fun v hv => ?_, List.forall_mem_nil _⟩
  · obtain ⟨o, _, id, hpos, hle, rfl⟩ := mem_variantRows hv
    show uint id = true
    simp only [uint, Bool.and_eq_true, decide_eq_true_eq]
    omega
  · obtain ⟨o, ho, id, _, _, rfl⟩ := mem_variantRows hv
    have huint := (facts s).productId o ho
    rw [(productOf_spec ho).2.1] at huint
    exact huint
  · obtain ⟨o, _, id, _, _, rfl⟩ := mem_variantRows hv
    rfl
  · obtain ⟨o, ho, id, _, _, rfl⟩ := mem_variantRows hv
    exact decide_eq_true (skuOf_length ((facts s).id o ho))
  · obtain ⟨o, _, id, _, _, rfl⟩ := mem_variantRows hv
    rfl
  · obtain ⟨o, ho, id, _, _, rfl⟩ := mem_variantRows hv
    obtain ⟨slug, _, hslug, _⟩ := slugOf_spec ho
    show (slugOf (productOf s o) o).isSome = true
    rw [hslug]
    rfl
  · obtain ⟨o, ho, id, _, _, rfl⟩ := mem_variantRows hv
    obtain ⟨slug, hproduct, hslug, _⟩ := slugOf_spec ho
    obtain ⟨hp, hid, _⟩ := productOf_spec ho
    show ((slugOf (productOf s o) o).all fun slug => decide (slug.length ≤ 120)) = true
    rw [hslug]
    apply decide_eq_true
    rw [slug_length]
    exact h o ho _ hp hid slug hproduct
  · intro o _ o' _ hne m n
    exact equal_some fun heq => hne (skuOf_inj heq)
  · intro o _ o' _ _ m n
    rfl
  · intro o ho o' ho' hne m n
    obtain ⟨slug, _, hslug, _⟩ := slugOf_spec ho
    obtain ⟨slug', _, hslug', _⟩ := slugOf_spec ho'
    show equal (slugOf (productOf s o) o) (slugOf (productOf s o') o') = false
    rw [hslug, hslug']
    exact equal_some fun heq => hne (slug_injective heq)
  · obtain ⟨o, _, id, _, _, rfl⟩ := mem_variantRows hv
    exact skuOf_notBlank o
  · obtain ⟨o, ho, id, _, _, rfl⟩ := mem_variantRows hv
    obtain ⟨slug, _, hslug, hformat⟩ := slugOf_spec ho
    show ((slugOf (productOf s o) o).all fun slug => slugFormat true slug.toList) = true
    rw [hslug]
    exact slugFormat_slug hformat o.id
  · obtain ⟨o, _, id, _, _, rfl⟩ := mem_variantRows hv
    rfl
  · obtain ⟨o, _, id, _, _, rfl⟩ := mem_variantRows hv
    rfl
  · have hnodup := variantRows_ids now s
    rw [List.Nodup, List.pairwise_map] at hnodup
    exact hnodup.imp fun hne => decide_eq_false hne
  · obtain ⟨o, ho, id, _, _, rfl⟩ := mem_variantRows hv
    exact decide_eq_true (List.mem_map_of_mem (productOf_spec ho).1)

theorem createVariant_ddl : run ((createVariant now).take 4) (withSellers now plan s) =
    .ok { withSellers now plan s with variants := some (variantTable now []) } := rfl

theorem createVariant_insert : (createVariant now).drop 4 = [variants.alter "ProductVariant" fun db =>
    Table.insert db.ids (variantsOf now (rowsOf db.offers) (rowsOf db.products))] := rfl

theorem createVariant_ok (h : SlugsFit s) :
    run (createVariant now) (withSellers now plan s) = .ok (withVariants now plan s) := by
  have hinsert : Table.insert (Db.ids { withSellers now plan s with variants := some (variantTable now []) })
      (variantsOf now s.offers s.products) (variantTable now []) = .ok (variantTable now (variantRows now s)) := by
    rw [Table.insert_ok (variants_hold h), ← Table.numbered_length 1 (variantsOf now s.offers s.products)]
    rfl
  rw [← List.take_append_drop 4 (createVariant now), run_append_ok createVariant_ddl, createVariant_insert]
  have halter : variants.alter "ProductVariant" (fun db => Table.insert db.ids
      (variantsOf now (rowsOf db.offers) (rowsOf db.products)))
      { withSellers now plan s with variants := some (variantTable now []) } = .ok (withVariants now plan s) :=
    alter_ok rfl rfl hinsert
  exact run_cons_ok halter

/-- They cannot if one does not. -/
theorem createVariant_error (h : ¬ SlugsFit s) :
    ∃ e, run (createVariant now) (withSellers now plan s) = .error e := by
  rw [← List.take_append_drop 4 (createVariant now), run_append_ok createVariant_ddl, createVariant_insert]
  cases hinsert : Table.insert (Db.ids { withSellers now plan s with variants := some (variantTable now []) })
      (variantsOf now s.offers s.products) (variantTable now []) with
  | error e =>
    exact ⟨e, run_cons_error (alter_error rfl rfl hinsert)⟩
  | ok t =>
    exfalso
    apply h
    have hvalid : (variantTable now []).Valid
        (Db.ids { withSellers now plan s with variants := some (variantTable now []) }) := by
      intro c hc
      cases c.rule with
      | check holds => exact List.forall_mem_nil _
      | unique same => exact List.Pairwise.nil
      | references target column => exact List.forall_mem_nil _
    have hholds := Table.insert_valid hvalid hinsert
    unfold variantTable variantConstraints at hholds
    simp only [List.forall_mem_append, List.forall_mem_cons, Rule.Holds] at hholds
    intro o ho p hp hid slug hslug
    obtain ⟨id, hin⟩ := variant_of_offer now ho
    have hfits := hholds.1.2.2.2.2.2.2.1.2 _ hin
    obtain ⟨slug', hproduct, hmade, _⟩ := slugOf_spec ho
    have hsame : p = productOf s o := by
      obtain ⟨hp', hid', _⟩ := productOf_spec ho
      apply List.inj_on_of_nodup_map (facts s).productIds hp hp'
      rw [hid] at hid'
      exact Option.some.inj hid'
    subst hsame
    rw [hslug] at hproduct
    cases hproduct
    change ((slugOf (productOf s o) o).all fun slug => decide (slug.length ≤ 120)) = true at hfits
    rw [hmade] at hfits
    have hle := of_decide_eq_true hfits
    rw [slug_length] at hle
    exact hle

end

end MarketplaceApi.Migrations.Split
