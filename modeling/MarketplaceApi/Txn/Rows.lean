import Mathlib.Data.List.Find
import Mathlib.Data.List.Pairwise
import MarketplaceApi.Txn.Program

/-!
# Rows under unique keys

A store of rows of which each occupies some keys. An insert locks the keys of its row and
fails on one that is taken. `other` is what no lock protects, such as flags an operator sets.
-/
namespace MarketplaceApi.Txn

structure Rows (Row H : Type) where
  rows : List Row
  other : H

section
variable {K Row H E R R' : Type} [DecidableEq K] (keys : Row → List K)

def Rows.add (s : Rows Row H) (row : Row) : Rows Row H := { s with rows := row :: s.rows }

def Rows.taken (s : Rows Row H) (k : K) : Bool := s.rows.any fun row => k ∈ keys row

/-- No two rows share a key. -/
def Apart (rows : List Row) : Prop := rows.Pairwise fun row row' => ∀ k ∈ keys row, k ∉ keys row'

/-- A key protects the rows that occupy it. -/
def rowIsolation : Isolation K (Rows Row H) where
  Part _ := List Row
  part k s := s.rows.filter fun row => k ∈ keys row
  le s s' := s.rows.Sublist s'.rows
  le_refl _ := .refl _
  le_trans h h' := h.trans h'

/-- `INSERT`; `fail` names the violated constraint. -/
def Rows.tryInsert (s : Rows Row H) (fail : K → E) (row : Row) : Except E (Rows Row H × Unit) :=
  (((keys row).find? (s.taken keys)).map fail).elim (.ok (s.add row, ())) .error

def Prog.insertRow (fail : K → E) (row : Row) : Prog K (Rows Row H) E Unit :=
  Prog.exec (keys row) fun s => s.tryInsert keys fail row

/-- What an insert leaves, whether it fails or not. -/
def Rows.insert (s : Rows Row H) (row : Row) : Rows Row H :=
  if ((keys row).find? (s.taken keys)).isSome then s else s.add row

/-- Whatever is seen, the program writes by inserts alone and goes on by what its locks protect. -/
def Prog.Inserts : Prog K (Rows Row H) E R → Prop
  | .ret _ => True
  | .throw _ => True
  | .peek next => ∀ s, (next s).Inserts
  | .stmt ks w next => (∃ row, ks = keys row ∧ w = fun s => s.insert keys row) ∧
      (∀ s s', (rowIsolation keys).Agree ks s s' → next s = next s') ∧ ∀ s, (next s).Inserts

variable {keys} {s s' b : Rows Row H} {k : K} {row : Row}

@[simp] theorem add_rows : (s.add row).rows = row :: s.rows := rfl

theorem taken_iff : s.taken keys k = true ↔ ∃ row ∈ s.rows, k ∈ keys row := by
  simp [Rows.taken]

/-- A key is taken if its part is not empty. -/
theorem taken_eq_part (s : Rows Row H) (k : K) :
    s.taken keys k = ((s.rows.filter fun row => k ∈ keys row).any fun _ => true) := by
  simp only [Rows.taken, List.any_filter, Bool.and_true]

theorem agree_taken_keys {ks : List K} (h : (rowIsolation keys).Agree ks s s') (hk : k ∈ ks) :
    s.taken keys k = s'.taken keys k := by
  rw [taken_eq_part, taken_eq_part]
  exact congrArg (fun rows => List.any rows fun _ => true) (h k hk)

theorem agree_clash {ks : List K} (h : (rowIsolation keys).Agree ks s s') :
    ks.find? (s.taken keys) = ks.find? (s'.taken keys) := by
  apply List.find?_congr
  intro k hk
  exact agree_taken_keys h hk

theorem leave_tryInsert (fail : K → E) : Prog.leave s (s.tryInsert keys fail row) = s.insert keys row := by
  unfold Rows.tryInsert Rows.insert
  cases (keys row).find? (s.taken keys) <;> rfl

theorem safe_insertRow (fail : K → E) (row : Row) :
    (Prog.insertRow keys fail row : Prog K (Rows Row H) E Unit).Safe (rowIsolation keys) b := by
  apply Prog.safe_insert (fun s => ((keys row).find? (s.taken keys)).map fail) (fun s => s.add row) ()
    fun k (part : List Row) => if k ∈ keys row then row :: part else part
  · intro s
    rfl
  · intro s k
    change (row :: s.rows).filter (fun other => k ∈ keys other) = _
    by_cases hk : k ∈ keys row
    · rw [List.filter_cons_of_pos (by simpa using hk)]
      exact (if_pos hk).symm
    · rw [List.filter_cons_of_neg (by simpa using hk)]
      exact (if_neg hk).symm
  · intro k hk part
    exact if_neg hk
  · intro s s' ha
    rw [agree_clash ha]
  · intro s
    exact List.sublist_cons_self _ _
  · intro s s' hle
    exact hle.cons_cons _

theorem confined_insert (row : Row) :
    Confined (rowIsolation keys) b (keys row) fun s : Rows Row H => s.insert keys row := by
  have hconfined := (safe_insertRow (fun k => k) row : (Prog.insertRow keys _ row).Safe (rowIsolation keys) b).1
  simpa only [leave_tryInsert] using hconfined

/-- A committed insert found all its keys free. -/
theorem exec_insertRow {fail : K → E} {u : Unit}
    (h : Exec (rowIsolation keys) b (Prog.insertRow keys fail row) s s' (.ok u)) :
    (∀ k ∈ keys row, s.taken keys k = false) ∧ s' = s.add row := by
  have he := h.of_exec
  unfold Rows.tryInsert at he
  cases hclash : (keys row).find? (s.taken keys) with
  | some k =>
    rw [hclash] at he
    cases he
  | none =>
    rw [hclash] at he
    cases he
    constructor
    · intro k hk
      have hfree := List.find?_eq_none.mp hclash k hk
      simpa using hfree
    · rfl

theorem inserts_insertRow (fail : K → E) (row : Row) :
    (Prog.insertRow keys fail row : Prog K (Rows Row H) E Unit).Inserts keys := by
  refine ⟨⟨row, rfl, funext fun s => leave_tryInsert fail⟩, fun s s' ha => ?_, fun s => ?_⟩
  · show Prog.resume (s.tryInsert keys fail row) = Prog.resume (s'.tryInsert keys fail row)
    unfold Rows.tryInsert
    rw [agree_clash ha]
    cases (keys row).find? (s'.taken keys) <;> rfl
  · show (Prog.resume (s.tryInsert keys fail row)).Inserts keys
    unfold Rows.tryInsert
    cases (keys row).find? (s.taken keys) <;> trivial

theorem Prog.inserts_look (f : Rows Row H → R) : (Prog.look f : Prog K (Rows Row H) E R).Inserts keys :=
  fun _ => trivial

theorem Prog.Inserts.bind {p : Prog K (Rows Row H) E R} {f : R → Prog K (Rows Row H) E R'}
    (hp : p.Inserts keys) (hf : ∀ r, (f r).Inserts keys) : (p.bind f).Inserts keys := by
  induction p with
  | ret r => exact hf r
  | throw e => trivial
  | peek next ih => exact fun s => ih s (hp s)
  | stmt ks w next ih =>
    refine ⟨hp.1, fun s s' ha => ?_, fun s => ih s (hp.2.2 s)⟩
    exact congrArg (fun p => p.bind f) (hp.2.1 s s' ha)

/-- Inserts need no locks but those of their rows. -/
theorem Prog.Inserts.safe {p : Prog K (Rows Row H) E R} (hp : p.Inserts keys) : p.Safe (rowIsolation keys) b := by
  induction p generalizing b with
  | ret r => trivial
  | throw e => trivial
  | peek next ih => exact fun v _ => ih v (hp v)
  | stmt ks w next ih =>
    obtain ⟨⟨row, rfl, rfl⟩, hnext, hrest⟩ := hp
    exact ⟨confined_insert row, fun s s' _ _ ha => hnext s s' ha, fun s _ => ih s (hrest s)⟩

theorem apart_add (h : Apart keys s.rows) (hfree : ∀ k ∈ keys row, s.taken keys k = false) :
    Apart keys (s.add row).rows := by
  apply List.pairwise_cons.mpr
  refine ⟨fun other hother k hk hin => ?_, h⟩
  have htaken : s.taken keys k = true := taken_iff.mpr ⟨other, hother, hin⟩
  rw [hfree k hk] at htaken
  cases htaken

theorem apart_insert (h : Apart keys s.rows) : Apart keys (s.insert keys row).rows := by
  unfold Rows.insert
  cases hclash : (keys row).find? (s.taken keys) with
  | some k => exact h
  | none =>
    apply apart_add h
    intro k hk
    have hfree := List.find?_eq_none.mp hclash k hk
    simpa using hfree

theorem suffix_insert (keys : Row → List K) (s : Rows Row H) (row : Row) :
    s.rows <:+ (s.insert keys row).rows ∧ (s.insert keys row).other = s.other := by
  unfold Rows.insert
  split
  · exact ⟨List.suffix_refl _, rfl⟩
  · exact ⟨List.suffix_cons _ _, rfl⟩

/-- A program that inserts keeps the keys unique and every row there is. -/
theorem Exec.inserts {p : Prog K (Rows Row H) E R} {o : Except E R} (h : Exec (rowIsolation keys) b p s s' o)
    (hp : p.Inserts keys) (ha : Apart keys s.rows) : Apart keys s'.rows ∧ s.rows <:+ s'.rows ∧ s'.other = s.other := by
  induction h with
  | ret => exact ⟨ha, List.suffix_refl _, rfl⟩
  | throw => exact ⟨ha, List.suffix_refl _, rfl⟩
  | peek v _ _ _ ih => exact ih (hp v) ha
  | @stmt b s s' ks w next o _ ih =>
    obtain ⟨⟨row, _, rfl⟩, _, hrest⟩ := hp
    obtain ⟨ha', hsuffix, hother⟩ := ih (hrest s) (apart_insert ha)
    obtain ⟨hkept, hsame⟩ := suffix_insert keys s row
    exact ⟨ha', hkept.trans hsuffix, hother.trans hsame⟩

omit [DecidableEq K] in
/-- Two rows that share a key are one. -/
theorem Apart.eq_of_key {rows : List Row} (h : Apart keys rows) {x y : Row} (hx : x ∈ rows) (hy : y ∈ rows)
    (hkx : k ∈ keys x) (hky : k ∈ keys y) : x = y := by
  have : Std.Symm fun x y => ∀ k ∈ keys x, k ∉ keys y := ⟨fun _ _ h k hky hkx => h k hkx hky⟩
  by_contra hne
  exact List.Pairwise.forall h hx hy hne k hkx hky

end

end MarketplaceApi.Txn
