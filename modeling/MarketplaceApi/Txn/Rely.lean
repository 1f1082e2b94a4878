import MarketplaceApi.Txn.Interleaving

/-!
# What a transaction may rely on

Between two statements of a transaction others commit, so its view moves. What its locks
protect stays; `Rely` says which other parts stay vacant. `Prog.Wp` is a weakest precondition
under that rely: no path of the program ends in an error of `bad`. The result of the module
is `relies_run`, for any number of interleaved transactions.
-/
namespace MarketplaceApi.Txn

open Transition

variable {K S E R R' Q : Type}

/-- With the locks `ks`, a part that is `guarded` and `vacant` stays vacant. -/
structure Rely (I : Isolation K S) where
  vacant : (k : K) → I.Part k → Prop
  guarded : List K → K → Prop

def Rely.Spares {I : Isolation K S} (G : Rely I) (ks : List K) (v v' : S) : Prop :=
  ∀ k, G.guarded ks k → G.vacant k (I.part k v) → G.vacant k (I.part k v')

/-- How a view may move while the transaction holds the locks `ks`. -/
def Rely.Keeps {I : Isolation K S} (G : Rely I) (ks : List K) (v v' : S) : Prop :=
  I.Agree ks v v' ∧ G.Spares ks v v'

section
variable {I : Isolation K S} {G : Rely I} {ks : List K} {v v' v'' : S}

theorem Rely.Keeps.refl (G : Rely I) (ks : List K) (v : S) : G.Keeps ks v v :=
  ⟨fun _ _ => rfl, fun _ _ h => h⟩

theorem Rely.Keeps.trans (h : G.Keeps ks v v') (h' : G.Keeps ks v' v'') : G.Keeps ks v v'' :=
  ⟨fun k hk => (h.1 k hk).trans (h'.1 k hk), fun k hk hv => h'.2 k hk (h.2 k hk hv)⟩

theorem Rely.spares_of_part (h : ∀ k, I.part k v' = I.part k v) : G.Spares ks v v' := by
  intro k _ hv
  rw [h k]
  exact hv

/-- From the view `v` and the locks `ks`, the program never ends in an error of `bad`, and
ends in `post` if it succeeds. -/
def Prog.Wp (bad : E → Prop) (G : Rely I) :
    Prog K S E R → List K → S → (List K → S → R → Prop) → Prop
  | .ret r, ks, v, post => ∀ v', G.Keeps ks v v' → post ks v' r
  | .throw e, _, _, _ => ¬ bad e
  | .peek next, ks, v, post => ∀ v', G.Keeps ks v v' → (next v').Wp bad G ks v' post
  | .stmt ks' w next, ks, v, post =>
    ∀ v', G.Keeps ks v v' → (next v').Wp bad G (ks ++ ks') (w v') post

variable {bad : E → Prop} {p : Prog K S E R} {post : List K → S → R → Prop}

/-- A weakest precondition survives what the others may do. -/
theorem Prog.Wp.later (h : p.Wp bad G ks v post) (hv : G.Keeps ks v v') : p.Wp bad G ks v' post := by
  cases p with
  | ret r => exact fun u hu => h u (hv.trans hu)
  | throw e => exact h
  | peek next => exact fun u hu => h u (hv.trans hu)
  | stmt ks' w next => exact fun u hu => h u (hv.trans hu)

theorem Prog.Wp.bind {f : R → Prog K S E R'} {post' : List K → S → R' → Prop}
    (h : p.Wp bad G ks v fun ks' v' r => (f r).Wp bad G ks' v' post') : (p.bind f).Wp bad G ks v post' := by
  induction p generalizing ks v with
  | ret r => exact h v (Rely.Keeps.refl G ks v)
  | throw e => exact h
  | peek next ih => exact fun u hu => ih u (h u hu)
  | stmt ks' w next ih => exact fun u hu => ih u (h u hu)

theorem Prog.Wp.mono {post' : List K → S → R → Prop} (h : p.Wp bad G ks v post)
    (hpost : ∀ ks v r, post ks v r → post' ks v r) : p.Wp bad G ks v post' := by
  induction p generalizing ks v with
  | ret r => exact fun u hu => hpost _ _ _ (h u hu)
  | throw e => exact h
  | peek next ih => exact fun u hu => ih u (h u hu)
  | stmt ks' w next ih => exact fun u hu => ih u (h u hu)

theorem Prog.wp_look {f : S → R} (h : ∀ v' v'', G.Keeps ks v v' → G.Keeps ks v' v'' → post ks v'' (f v')) :
    (Prog.look f : Prog K S E R).Wp bad G ks v post := fun v' hv v'' hv' => h v' v'' hv hv'

/-- One statement: its errors are not bad, and what it wrote is seen until the next one. -/
theorem Prog.wp_exec {keys : List K} {f : S → Except E (S × R)}
    (herror : ∀ v' e, G.Keeps ks v v' → f v' = .error e → ¬ bad e)
    (hok : ∀ v' m r v'', G.Keeps ks v v' → f v' = .ok (m, r) → G.Keeps (ks ++ keys) m v'' →
      post (ks ++ keys) v'' r) : (Prog.exec keys f).Wp bad G ks v post := by
  intro v' hv
  change (Prog.resume (f v')).Wp bad G (ks ++ keys) (Prog.leave v' (f v')) post
  cases hf : f v' with
  | ok q => exact fun v'' hv' => hok v' q.1 q.2 v'' hv hf hv'
  | error e => exact herror v' e hv hf

variable {b s s' : S} {f : S → S} {q : Prog K S E R}

/-- Two states that agree on the locks of a transaction agree on them after its writes. -/
theorem Progress.inside (h : Progress I b p s f q ks) (hp : p.Safe I b) (hb : I.le b s) (hle : I.le s s')
    (ha : I.Agree ks s s') : I.Agree ks (f s) (f s') := by
  induction h generalizing s' with
  | refl => exact ha
  | peek v hbv hv _ ih => exact ih (hp v hbv) hv hle ha
  | @stmt b s f q ks ks' w next hrest ih =>
    have hb' := I.le_trans hb hle
    have ha₁ : I.Agree ks s s' := fun k hk => ha k (List.mem_append_left _ hk)
    have hw := hp.1.inside hb hb' ha₁
    have ha₂ : I.Agree ks' (w s) (w s') := by
      intro k hk
      by_cases hin : k ∈ ks
      · exact hw k hin
      · rw [hp.1.frame hb k hin, hp.1.frame hb' k hin]
        exact ha k (List.mem_append_right _ hk)
    have hle' := hp.1.mono hb hle ha₁
    have hsafe := hp.2.2 s hb
    have hbw := I.le_trans hb (hp.1.grows hb)
    have hrest' := hrest.stable hsafe hbw hle' ha₂
    intro k hk
    change I.part k (f (w s)) = I.part k (f (w s'))
    by_cases hin : k ∈ ks'
    · exact ih hsafe hbw hle' ha₂ k hin
    · have hk : k ∈ ks := (List.mem_append.mp hk).resolve_right hin
      rw [hrest.frame hsafe hbw hin, hrest'.frame hsafe (I.le_trans hbw hle') hin]
      exact hw k hk

/-- A view moves as the committed state under it does. -/
theorem Progress.keeps (h : Progress I b p s f q ks) (hp : p.Safe I b) (hb : I.le b s) (hle : I.le s s')
    (ha : I.Agree ks s s') (hk : G.Spares ks s s') : G.Keeps ks (f s) (f s') := by
  refine ⟨h.inside hp hb hle ha, fun k hg hv => ?_⟩
  by_cases hin : k ∈ ks
  · rw [← h.inside hp hb hle ha k hin]
    exact hv
  · rw [h.frame hp hb hin] at hv
    rw [(h.stable hp hb hle ha).frame hp (I.le_trans hb hle) hin]
    exact hk k hg hv

end

section
variable {Y : System K S E R Q} {c c' : Config K S E R Q} {ev : Event Q}
  {bad : E → Prop} {G : Q → Rely Y.isolation}

/-- No open transaction can still end in an error of `bad`. -/
def Relies (Y : System K S E R Q) (bad : E → Prop) (G : Q → Rely Y.isolation) (c : Config K S E R Q) : Prop :=
  ∀ i t, c.txs i = some t → t.rest.Wp bad (G t.request) t.locks (t.pend c.db) fun _ _ _ => True

theorem relies_start (s : S) : Relies Y bad G (Config.start s) := by
  intro i t h
  simp [Config.start] at h

theorem Relies.set (h : Relies Y bad G c) {i : Nat} {t : Tx K S E R Q}
    (ht : t.rest.Wp bad (G t.request) t.locks (t.pend c.db) fun _ _ _ => True) :
    Relies Y bad G (c.set i (some t)) := by
  intro j u hj
  by_cases he : j = i
  · subst he
    rw [Config.set_self] at hj
    cases hj
    exact ht
  · rw [Config.set_other c he] at hj
    exact h j u hj

/-- Ending a transaction, the committed state moving as the others rely on. -/
theorem Relies.finish (hc : Coherent Y c) (h : Relies Y bad G c) {i : Nat} {s' : S} {as : List (Q × Except E R)}
    (hle : Y.isolation.le c.db s')
    (ha : ∀ j u, j ≠ i → c.txs j = some u → Y.isolation.Agree u.locks c.db s')
    (hk : ∀ j u, j ≠ i → c.txs j = some u → (G u.request).Spares u.locks c.db s') :
    Relies Y bad G { (c.set i none) with db := s', answers := as } := by
  intro j u hj
  have hne : j ≠ i := by
    rintro rfl
    have hnone := Config.set_self c j none
    change (c.set j none).txs j = some u at hj
    rw [hnone] at hj
    cases hj
  change (c.set i none).txs j = some u at hj
  rw [Config.set_other c hne] at hj
  obtain ⟨b, _, hb, hp⟩ := hc.progress j u hj
  exact (h j u hj).later (hp.keeps (Y.safe _ b) hb hle (ha j u hne hj) (hk j u hne hj))

theorem relies_step (hc : Coherent Y c) (h : Relies Y bad G c) (hs : Step Y c ev c')
    (hbegin : ∀ i q, ev = .begin i q → (Y.handler q).Wp bad (G q) [] c.db fun _ _ _ => True)
    (hcommit : ∀ i, ev = .commit i → ∀ j u, j ≠ i → c.txs j = some u → (G u.request).Spares u.locks c.db c'.db) :
    Relies Y bad G c' := by
  cases hs with
  | @begin i q hi hq => exact h.set (hbegin i q rfl)
  | @peek i t next hi hr =>
    have ht := h i t hi
    rw [hr] at ht
    exact h.set (ht _ (Rely.Keeps.refl _ _ _))
  | @stmt i t ks w next hi hr hfree =>
    have ht := h i t hi
    rw [hr] at ht
    exact h.set (ht _ (Rely.Keeps.refl _ _ _))
  | @commit i t r hi hr =>
    obtain ⟨b, hq, hb, hp⟩ := hc.progress i t hi
    refine h.finish hc (hp.grows (Y.safe _ b) hb) (fun j u hj hu k hk => ?_) (hcommit i rfl)
    exact (hp.frame (Y.safe _ b) hb (hc.exclusive j i u t hu hi hj k hk)).symm
  | rollback hi hr =>
    exact h.finish hc (Y.isolation.le_refl _) (fun _ _ _ _ _ _ => rfl) fun _ _ _ _ _ _ hv => hv
  | abort hi =>
    exact h.finish hc (Y.isolation.le_refl _) (fun _ _ _ _ _ _ => rfl) fun _ _ _ _ _ _ hv => hv
  | env he =>
    intro j u hj
    obtain ⟨b, _, hb, hp⟩ := hc.progress j u hj
    exact (h j u hj).later (hp.keeps (Y.safe _ b) hb (Y.env_le he) (fun k _ => (Y.env_part he k).symm)
      (Rely.spares_of_part (Y.env_part he)))

variable {Meets : Config K S E R Q → Event Q → Prop} {s : S} {tr : List (Config K S E R Q × Event Q)}

/-- The rule for errors that no interleaving may cause: a request begins with its weakest
precondition, and a commit keeps what the other open transactions rely on. -/
theorem relies_run
    (hbegin : ∀ {c i q}, Meets c (.begin i q) → (Y.handler q).Wp bad (G q) [] c.db fun _ _ _ => True)
    (hcommit : ∀ {tr c i c' j u}, Run (Step Y) (Config.start s) tr c → Always Meets tr → Meets c (.commit i) →
      Step Y c (.commit i) c' → j ≠ i → c.txs j = some u → (G u.request).Spares u.locks c.db c'.db)
    (hr : Run (Step Y) (Config.start s) tr c) (hm : Always Meets tr) : Relies Y bad G c := by
  induction hr with
  | nil => exact relies_start s
  | snoc hr hstep ih =>
    obtain ⟨ht, he⟩ := always_snoc.mp hm
    refine relies_step (coherent_run hr) (ih ht) hstep (fun i q hev => ?_) fun i hev j u hj hu => ?_
    · subst hev
      exact hbegin he
    · subst hev
      exact hcommit hr ht he hstep hj hu

/-- No request is answered with an error of `bad`. -/
theorem answers_run
    (hbegin : ∀ {c i q}, Meets c (.begin i q) → (Y.handler q).Wp bad (G q) [] c.db fun _ _ _ => True)
    (hcommit : ∀ {tr c i c' j u}, Run (Step Y) (Config.start s) tr c → Always Meets tr → Meets c (.commit i) →
      Step Y c (.commit i) c' → j ≠ i → c.txs j = some u → (G u.request).Spares u.locks c.db c'.db)
    (hr : Run (Step Y) (Config.start s) tr c) (hm : Always Meets tr) {q : Q} {e : E}
    (ha : (q, .error e) ∈ c.answers) : ¬ bad e := by
  induction hr with
  | nil => cases ha
  | snoc hr hstep ih =>
    obtain ⟨ht, _⟩ := always_snoc.mp hm
    have hrely := relies_run hbegin hcommit hr ht
    cases hstep with
    | begin _ _ => exact ih ht ha
    | peek _ _ => exact ih ht ha
    | stmt _ _ _ => exact ih ht ha
    | commit _ _ =>
      rcases List.mem_cons.mp ha with heq | ha
      · cases heq
      · exact ih ht ha
    | @rollback i t e' hi hrest =>
      rcases List.mem_cons.mp ha with heq | ha
      · cases heq
        have hwp := hrely i t hi
        rw [hrest] at hwp
        exact hwp
      · exact ih ht ha
    | abort _ => exact ih ht ha
    | env _ => exact ih ht ha

end

end MarketplaceApi.Txn
