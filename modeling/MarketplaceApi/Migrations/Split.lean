import Mathlib.Data.List.Sort
import MarketplaceApi.Migrations.Columns
import MarketplaceApi.Sql.Table

/-!
# Splitting offers into variants and sellers

The statements of `SplitProductVariantSellerOffer.up` on the tables as the migrations before it
leave them. Columns that no statement reads and no constraint mentions are left out, and so are
the constraints on them. `NOT NULL` and the type of a column are constraints named after it.
-/
namespace MarketplaceApi.Migrations

open Sql

inductive CurrencyEnum where
  | UAH
  | EUR
  | USD
  deriving DecidableEq

namespace Split

inductive TableId where
  | user
  | product
  | offer
  | seller
  | variant
  deriving DecidableEq

structure User where
  id : Nat
  deriving DecidableEq

structure Product where
  id : Nat
  slug : Option String
  deriving DecidableEq

/-- `ProductOffer`, which becomes `SellerOffer`. Amounts are in hundredths. -/
structure Offer where
  id : Nat
  productId : Option Nat
  sellerId : Nat
  sku : String
  price : Int
  currency : CurrencyEnum
  discountPrice : Option Int
  quantity : Int
  createdAt : Nat
  updatedAt : Nat
  deletedAt : Option Nat
  variantId : Option Nat
  deriving DecidableEq

structure OrderProduct where
  orderId : Nat
  offerId : Nat
  quantity : Nat
  price : Int
  discountPrice : Option Int
  deriving DecidableEq

structure Seller where
  id : Nat
  userId : Nat
  createdAt : Nat
  updatedAt : Nat
  deletedAt : Option Nat
  deriving DecidableEq

structure ProductVariant where
  id : Nat
  productId : Nat
  sku : Option String
  barcode : Option String
  slug : Option String
  createdAt : Nat
  updatedAt : Nat
  deletedAt : Option Nat
  deriving DecidableEq

structure Db where
  users : Option (Table TableId User)
  products : Option (Table TableId Product)
  offers : Option (Table TableId Offer)
  lines : Option (Table TableId OrderProduct)
  sellers : Option (Table TableId Seller)
  variants : Option (Table TableId ProductVariant)

def rowsOf {R : Type} (t : Option (Table TableId R)) : List R := t.elim [] Table.rows

def Db.ids (db : Db) : TableId → List Nat
  | .user => (rowsOf db.users).map User.id
  | .product => (rowsOf db.products).map Product.id
  | .offer => (rowsOf db.offers).map Offer.id
  | .seller => (rowsOf db.sellers).map Seller.id
  | .variant => (rowsOf db.variants).map ProductVariant.id

def products : Slot Db TableId Product := ⟨Db.products, fun t db => { db with products := t }⟩
def offers : Slot Db TableId Offer := ⟨Db.offers, fun t db => { db with offers := t }⟩
def lines : Slot Db TableId OrderProduct := ⟨Db.lines, fun t db => { db with lines := t }⟩
def sellers : Slot Db TableId Seller := ⟨Db.sellers, fun t db => { db with sellers := t }⟩
def variants : Slot Db TableId ProductVariant := ⟨Db.variants, fun t db => { db with variants := t }⟩

/-- `"x" ~ '^[a-z0-9]+(-[a-z0-9]+)*$'`: the characters after an opening part or a hyphen. -/
def slugFormat : Bool → List Char → Bool
  | opening, [] => !opening
  | opening, c :: cs =>
    if c.isLower || c.isDigit then slugFormat false cs
    else c = '-' && !opening && slugFormat true cs

/-- `btrim("x") <> ''` -/
def notBlank (x : String) : Bool := x.toList.any fun c => c ≠ ' '

/-- The domain `amount`. -/
def amount (value : Int) : Bool := 0 ≤ value

def productConstraints : List (Constraint TableId Product) :=
  [⟨"Product_pkey", ["id"], .unique fun p q => p.id = q.id⟩,
    ⟨"slug NOT NULL", ["slug"], .check fun p => p.slug.isSome⟩,
    ⟨"slug varchar(120)", ["slug"], .check fun p => p.slug.all fun slug => slug.length ≤ 120⟩,
    ⟨"Product_slug_key", ["slug"], .unique fun p q => equal p.slug q.slug⟩,
    ⟨"Product_slug_format", ["slug"], .check fun p => p.slug.all fun slug => slugFormat true slug.toList⟩]

def offerConstraints : List (Constraint TableId Offer) :=
  [⟨"ProductOffer_pkey", ["id"], .unique fun o o' => o.id = o'.id⟩,
    ⟨"id integer", ["id"], .check fun o => uint o.id⟩,
    ⟨"productId uint", ["productId"], .check fun o => o.productId.all uint⟩,
    ⟨"productId NOT NULL", ["productId"], .check fun o => o.productId.isSome⟩,
    ⟨"sellerId uint", ["sellerId"], .check fun o => uint o.sellerId⟩,
    ⟨"sku varchar(64)", ["sku"], .check fun o => o.sku.length ≤ 64⟩,
    ⟨"price amount", ["price"], .check fun o => amount o.price⟩,
    ⟨"discountPrice amount", ["discountPrice"], .check fun o => o.discountPrice.all amount⟩,
    ⟨"ProductOffer_sellerId_sku", ["sellerId", "sku"],
      .unique fun o o' => o.sellerId = o'.sellerId && o.sku = o'.sku⟩,
    ⟨"ProductOffer_sku_notBlank", ["sku"], .check fun o => notBlank o.sku⟩,
    ⟨"ProductOffer_discount_le", ["discountPrice", "price"],
      .check fun o => o.discountPrice.all fun discountPrice => discountPrice ≤ o.price⟩,
    ⟨"ProductOffer_quantity_nonneg", ["quantity"], .check fun o => 0 ≤ o.quantity⟩,
    ⟨"ProductOffer_deletedAt_ord", ["deletedAt", "createdAt"], .check fun o => deletedAtOrder o.createdAt o.deletedAt⟩,
    ⟨"ProductOffer_productId_fkey", ["productId"], .references .product Offer.productId⟩,
    ⟨"ProductOffer_sellerId_fkey", ["sellerId"], .references .user fun o => some o.sellerId⟩]

def lineConstraints : List (Constraint TableId OrderProduct) :=
  [⟨"OrderProduct_pkey", ["orderId", "productOfferId"],
      .unique fun l l' => l.orderId = l'.orderId && l.offerId = l'.offerId⟩,
    ⟨"OrderProduct_discount_le", ["discountPrice", "price"],
      .check fun l => l.discountPrice.all fun discountPrice => discountPrice ≤ l.price⟩,
    ⟨"OrderProduct_productOfferId_fkey", ["productOfferId"], .references .offer fun l => some l.offerId⟩]

def sellerConstraints : List (Constraint TableId Seller) :=
  [⟨"id integer", ["id"], .check fun s => uint s.id⟩,
    ⟨"userId uint", ["userId"], .check fun s => uint s.userId⟩,
    ⟨"Seller_userId_key", ["userId"], .unique fun s s' => s.userId = s'.userId⟩,
    ⟨"Seller_deletedAt_order", ["deletedAt", "createdAt"], .check fun s => deletedAtOrder s.createdAt s.deletedAt⟩,
    ⟨"Seller_pkey", ["id"], .unique fun s s' => s.id = s'.id⟩]

def variantConstraints : List (Constraint TableId ProductVariant) :=
  [⟨"id integer", ["id"], .check fun v => uint v.id⟩,
    ⟨"productId uint", ["productId"], .check fun v => uint v.productId⟩,
    ⟨"sku NOT NULL", ["sku"], .check fun v => v.sku.isSome⟩,
    ⟨"sku varchar(64)", ["sku"], .check fun v => v.sku.all fun sku => sku.length ≤ 64⟩,
    ⟨"barcode varchar(14)", ["barcode"], .check fun v => v.barcode.all fun barcode => barcode.length ≤ 14⟩,
    ⟨"slug NOT NULL", ["slug"], .check fun v => v.slug.isSome⟩,
    ⟨"slug varchar(120)", ["slug"], .check fun v => v.slug.all fun slug => slug.length ≤ 120⟩,
    ⟨"ProductVariant_sku_key", ["sku"], .unique fun v v' => equal v.sku v'.sku⟩,
    ⟨"ProductVariant_barcode_key", ["barcode"], .unique fun v v' => equal v.barcode v'.barcode⟩,
    ⟨"ProductVariant_slug_key", ["slug"], .unique fun v v' => equal v.slug v'.slug⟩,
    ⟨"ProductVariant_sku_notBlank", ["sku"], .check fun v => v.sku.all notBlank⟩,
    ⟨"ProductVariant_slug_format", ["slug"], .check fun v => v.slug.all fun slug => slugFormat true slug.toList⟩,
    ⟨"ProductVariant_barcode_format", ["barcode"], .check fun v => v.barcode.all fun barcode =>
      decide (8 ≤ barcode.length) && decide (barcode.length ≤ 14) && barcode.toList.all Char.isDigit⟩,
    ⟨"ProductVariant_deletedAt_order", ["deletedAt", "createdAt"],
      .check fun v => deletedAtOrder v.createdAt v.deletedAt⟩,
    ⟨"ProductVariant_pkey", ["id"], .unique fun v v' => v.id = v'.id⟩]

/-- What Postgres is free to choose: the order of `SELECT DISTINCT`, and the order in which the
two updates visit the offers. -/
structure Plan where
  distinct : List Nat → List Nat
  linking : List Nat → List Nat
  remapping : List Nat → List Nat
  distinct_perm : ∀ l, (distinct l).Perm l
  linking_perm : ∀ l, (linking l).Perm l
  remapping_perm : ∀ l, (remapping l).Perm l

/-- `'sku-' || o."id"` -/
def skuOf (o : Offer) : String := "sku-" ++ toString o.id

/-- `p."slug" || '-v' || o."id"` -/
def slugOf (p : Product) (o : Offer) : Option String := p.slug.map fun slug => slug ++ "-v" ++ toString o.id

/-- `SELECT DISTINCT "sellerId" FROM "ProductOffer"` -/
def sellersOf (rows : List Offer) : List Nat := (rows.map Offer.sellerId).dedup

/-- `SELECT … FROM "ProductOffer" o JOIN "Product" p ON p."id" = o."productId" ORDER BY o."id"` -/
def variantsOf (now : Nat) (offers : List Offer) (products : List Product) : List (Nat → ProductVariant) :=
  (offers.insertionSort fun o o' => o.id ≤ o'.id).flatMap fun o =>
    (products.filter fun p => some p.id = o.productId).map fun p id =>
      ⟨id, p.id, some (skuOf o), none, slugOf p o, now, now, none⟩

/-- The join of `UPDATE "SellerOffer" o … WHERE v."sku" = 'sku-' || o."id"`. -/
def linked (variants : List ProductVariant) (o : Offer) : Option Offer :=
  (variants.find? fun v => v.sku = some (skuOf o)).map fun v => { o with variantId := some v.id }

/-- The join of `UPDATE "SellerOffer" o … WHERE s."userId" = o."sellerId"`. -/
def remapped (sellers : List Seller) (o : Offer) : Option Offer :=
  (sellers.find? fun s => s.userId = o.sellerId).map fun s => { o with sellerId := s.id }

section
variable (now : Nat) (plan : Plan)

def createSeller : List (Statement Db) :=
  [sellers.create ⟨"Seller", ["id", "userId", "createdAt", "updatedAt", "deletedAt"], sellerConstraints, [], 1, []⟩,
    sellers.alter "Seller" fun db => Table.addConstraint db.ids
      ⟨"Seller_userId_fkey", ["userId"], .references .user fun s => some s.userId⟩,
    sellers.alter "Seller" fun _ => Table.createTrigger
      ⟨"Seller_setUpdatedAt", true, fun s => { s with updatedAt := now }⟩,
    sellers.alter "Seller" fun db => Table.insert db.ids
      ((plan.distinct (sellersOf (rowsOf db.offers))).map fun userId id => ⟨id, userId, now, now, none⟩)]

def createVariant : List (Statement Db) :=
  [variants.create ⟨"ProductVariant",
      ["id", "productId", "sku", "barcode", "slug", "createdAt", "updatedAt", "deletedAt"], variantConstraints, [],
      1, []⟩,
    variants.alter "ProductVariant" fun db => Table.addConstraint db.ids
      ⟨"ProductVariant_productId_fkey", ["productId"], .references .product fun v => some v.productId⟩,
    variants.alter "ProductVariant" fun _ => Table.createIndex "productId",
    variants.alter "ProductVariant" fun _ => Table.createTrigger
      ⟨"ProductVariant_setUpdatedAt", true, fun v => { v with updatedAt := now }⟩,
    variants.alter "ProductVariant" fun db => Table.insert db.ids
      (variantsOf now (rowsOf db.offers) (rowsOf db.products))]

def renameOffer : List (Statement Db) :=
  [offers.alter "ProductOffer" fun _ => Table.renameTo "SellerOffer",
    offers.alter "SellerOffer" fun _ => Table.renameColumn "sku" "sellerSku",
    offers.alter "SellerOffer" fun _ => Table.renameTrigger "ProductOffer_setUpdatedAt" "SellerOffer_setUpdatedAt",
    offers.alter "SellerOffer" fun _ => Table.renameConstraint "ProductOffer_pkey" "SellerOffer_pkey",
    offers.alter "SellerOffer" fun _ =>
      Table.renameConstraint "ProductOffer_sellerId_sku" "SellerOffer_sellerId_sellerSku",
    offers.alter "SellerOffer" fun _ =>
      Table.renameConstraint "ProductOffer_sku_notBlank" "SellerOffer_sellerSku_notBlank",
    offers.alter "SellerOffer" fun _ => Table.renameConstraint "ProductOffer_discount_le" "SellerOffer_discount_le",
    offers.alter "SellerOffer" fun _ =>
      Table.renameConstraint "ProductOffer_quantity_nonneg" "SellerOffer_quantity_nonneg",
    offers.alter "SellerOffer" fun _ => Table.renameConstraint "ProductOffer_deletedAt_ord" "SellerOffer_deletedAt_ord"]

def linkVariant : List (Statement Db) :=
  [offers.alter "SellerOffer" fun _ => Table.addColumn "variantId"
      ⟨"variantId uint", ["variantId"], .check fun o => o.variantId.all uint⟩ fun o => { o with variantId := none },
    offers.alter "SellerOffer" fun db => Table.update db.ids Offer.id (linked (rowsOf db.variants))
      (plan.linking ((rowsOf db.offers).map Offer.id)),
    offers.alter "SellerOffer" fun db => Table.addConstraint db.ids
      ⟨"variantId NOT NULL", ["variantId"], .check fun o => o.variantId.isSome⟩,
    offers.alter "SellerOffer" fun db => Table.addConstraint db.ids
      ⟨"SellerOffer_variantId_fkey", ["variantId"], .references .variant Offer.variantId⟩]

def remapSeller : List (Statement Db) :=
  [offers.alter "SellerOffer" fun _ => Table.dropConstraint "ProductOffer_sellerId_fkey",
    offers.alter "SellerOffer" fun db => Table.update db.ids Offer.id (remapped (rowsOf db.sellers))
      (plan.remapping ((rowsOf db.offers).map Offer.id)),
    offers.alter "SellerOffer" fun db => Table.addConstraint db.ids
      ⟨"SellerOffer_sellerId_fkey", ["sellerId"], .references .seller fun o => some o.sellerId⟩,
    offers.alter "SellerOffer" fun db => Table.addConstraint db.ids
      ⟨"SellerOffer_sellerId_variantId", ["sellerId", "variantId"],
        .unique fun o o' => o.sellerId = o'.sellerId && equal o.variantId o'.variantId⟩]

def dropProduct : List (Statement Db) :=
  [offers.alter "SellerOffer" fun _ => Table.dropConstraint "ProductOffer_productId_fkey",
    offers.alter "SellerOffer" fun _ => Table.dropColumn "productId" fun o => { o with productId := none },
    lines.alter "OrderProduct" fun _ => Table.dropConstraint "OrderProduct_productOfferId_fkey",
    lines.alter "OrderProduct" fun _ => Table.renameColumn "productOfferId" "offerId",
    lines.alter "OrderProduct" fun db => Table.addConstraint db.ids
      ⟨"OrderProduct_offerId_fkey", ["offerId"], .references .offer fun l => some l.offerId⟩,
    products.alter "Product" fun _ => Table.dropConstraint "Product_slug_format",
    products.alter "Product" fun _ => Table.dropConstraint "Product_slug_key",
    products.alter "Product" fun _ => Table.dropColumn "slug" fun p => { p with slug := none }]

/-- The statements of `up`. -/
def up : List (Statement Db) :=
  createSeller now plan ++ createVariant now ++ renameOffer ++ linkVariant plan ++ remapSeller plan ++ dropProduct

end

/-- The rows of a database before the migration. -/
structure Rows where
  users : List User
  products : List Product
  offers : List Offer
  lines : List OrderProduct
  next : TableId → Nat

namespace Rows

def productTable (d : Rows) : Table TableId Product :=
  ⟨"Product", ["id", "slug"], productConstraints, [], d.next .product, d.products⟩

def offerTable (now : Nat) (d : Rows) : Table TableId Offer :=
  ⟨"ProductOffer", ["id", "productId", "sellerId", "sku", "price", "currency", "discountPrice", "quantity", "createdAt",
      "updatedAt", "deletedAt"], offerConstraints,
    [⟨"ProductOffer_setUpdatedAt", true, fun o => { o with updatedAt := now }⟩], d.next .offer, d.offers⟩

def lineTable (d : Rows) : Table TableId OrderProduct :=
  ⟨"OrderProduct", ["orderId", "productOfferId", "quantity", "price", "discountPrice"], lineConstraints, [], 0, d.lines⟩

def db (now : Nat) (d : Rows) : Db where
  users := some ⟨"User", ["id"], [], [], d.next .user, d.users⟩
  products := some d.productTable
  offers := some (d.offerTable now)
  lines := some d.lineTable
  sellers := none
  variants := none

end Rows

/-- A database that satisfies the constraints in force before the migration. -/
structure State extends Rows where
  products_valid : ∀ now, toRows.productTable.Valid (toRows.db now).ids
  offers_valid : ∀ now, (toRows.offerTable now).Valid (toRows.db now).ids
  lines_valid : ∀ now, toRows.lineTable.Valid (toRows.db now).ids

/-- The old offer is there under its id, and points to its product and its seller through rows of the new tables. -/
structure Kept (db : Db) (o o' : Offer) : Prop where
  id : o'.id = o.id
  sku : o'.sku = o.sku
  price : o'.price = o.price
  discountPrice : o'.discountPrice = o.discountPrice
  currency : o'.currency = o.currency
  quantity : o'.quantity = o.quantity
  deletedAt : o'.deletedAt = o.deletedAt
  variant : ∃ v ∈ rowsOf db.variants, o'.variantId = some v.id ∧ o.productId = some v.productId
  seller : ∃ s ∈ rowsOf db.sellers, o'.sellerId = s.id ∧ o.sellerId = s.userId

/-- Every offer is kept, there are no others, and every order line points to the offer it pointed to. -/
structure Preserves (s : State) (db : Db) : Prop where
  offers : List.Forall₂ (Kept db) s.offers (rowsOf db.offers)
  variants_nodup : ((rowsOf db.variants).map ProductVariant.id).Nodup
  sellers_nodup : ((rowsOf db.sellers).map Seller.id).Nodup
  lines : rowsOf db.lines = s.lines

end Split

end MarketplaceApi.Migrations
