import MarketplaceApi.Kafka.Delivery

/-!
# A group catches up

No message can hold a group back for good: when every request either commits or is rejected, a member that runs
undisturbed brings the committed offset of its partition to the end.
-/
namespace MarketplaceApi.Kafka

open Transition (Run Always always_nil always_snoc always_append)
open Txn

section
variable {K S E R Q V : Type} {X : Subscription K S E R Q V} {P : Purpose X} {w w' : World K S E R Q}
  {i partition offset : Nat} {position : Position} {message : Message} {value : V} {q : Q}

/-- For every admitted event there is a request that commits or is rejected, on all good tables. -/
def Purpose.Able (P : Purpose X) : Prop :=
  ∀ s value, P.Good s → (∀ q, X.request value q → P.Admitted q) → ∃ q, X.request value q ∧ X.system.allowed s q ∧
    P.Fresh s q ∧ ((∃ s' r, (X.system.handler q).run s = .ok (s', r)) ∨
      ∃ e, (X.system.handler q).run s = .error e ∧ X.rejected e = true)

/-- A step of the group itself: nothing arrives, and every request is a member's. -/
def Inner (w : World K S E R Q) (ev : Event Q) : Prop :=
  (∀ partition message, ev ≠ .append partition message) ∧ ∀ i q, ev = .tx (.begin i q) → w.members i ≠ none

/-- What a member does on its own. -/
def Purpose.Acts (P : Purpose X) (w : World K S E R Q) (ev : Event Q) : Prop := P.Meets w ev ∧ Inner w ev

/-- The steps that draw nothing and begin nothing. -/
theorem acts_plain {ev : Event Q} (happend : ∀ partition message, ev ≠ .append partition message)
    (hbegin : ∀ i q, ev ≠ .tx (.begin i q)) (hcommit : ∀ i, ev ≠ .tx (.commit i)) : P.Acts w ev :=
  ⟨⟨fun i _ he => absurd he (hcommit i), fun partition message _ _ he => absurd he (happend partition message),
    fun i q he => absurd he (hbegin i q)⟩, happend, fun i q he => absurd he (hbegin i q)⟩

/-- The member is past the message, and nothing is open. -/
structure Passed (i : Nat) (position : Position) (w w' : World K S E R Q) : Prop where
  member : w'.members i = some (.ready position.next)
  idle : w'.db.txs = fun _ => none
  log : w'.log = w.log

theorem statements_run {c : Config K S E R Q} {tr : List (Config K S E R Q × Txn.Event Q)}
    (hr : Run (Txn.Step X.system) w.db tr c) (h : ∀ p ∈ tr, p.2 = .statement i) :
    ∃ tr', Run (Step X) w tr' { w with db := c } ∧ Always P.Acts tr' := by
  induction hr with
  | nil => exact ⟨[], .nil, always_nil⟩
  | @snoc tr c c' e _ hstep ih =>
    obtain ⟨tr', hr', hacts⟩ := ih fun p hp => h p (List.mem_append_left _ hp)
    obtain rfl : e = .statement i := h _ (List.mem_append_right _ List.mem_cons_self)
    have hnext : Step X { w with db := c } (.tx (.statement i)) { w with db := c' } := .statement hstep
    exact ⟨_, hr'.snoc hnext, always_snoc.mpr ⟨hacts, acts_plain (by simp) (by simp) (by simp)⟩⟩

/-- A member begins the transaction of its message. -/
theorem begin_run (hi : w.members i = some (.ready position)) (hmessage : w.message? position = some message)
    (hread : X.read message = .event value) (hq : X.request value q) (hallowed : X.system.allowed w.db.db q)
    (hidle : w.db.txs = fun _ => none) :
    ∃ tr, Run (Step X) w tr { w.put i (some (.handling position)) with
      db := Config.set ⟨w.db.db, fun _ => none, w.db.answers⟩ i (some ⟨q, X.system.handler q, id, []⟩) } ∧
      Always P.Acts tr := by
  have hsame : w.db.set i (some ⟨q, X.system.handler q, id, []⟩) =
      Config.set ⟨w.db.db, fun _ => none, w.db.answers⟩ i (some ⟨q, X.system.handler q, id, []⟩) := by
    rw [← hidle]
  have hbegin : Txn.Step X.system w.db (.begin i q) (w.db.set i (some ⟨q, X.system.handler q, id, []⟩)) :=
    .begin (by rw [hidle]) hallowed
  rw [hsame] at hbegin
  have hmember : ∀ j q', (Event.tx (.begin i q) : Event Q) = .tx (.begin j q') → w.members j ≠ none := by
    rintro j q' he
    cases he
    rw [hi]
    simp
  refine ⟨_, Run.nil.snoc (.handle hi hmessage hread hq hbegin), always_snoc.mpr ⟨always_nil, ⟨?_, ?_, ?_⟩, ?_, ?_⟩⟩
  · simp
  · simp
  · intro j q' he hnone
    exact absurd hnone (hmember j q' he)
  · simp
  · exact hmember

/-- A message whose request commits. -/
theorem handled_run (hi : w.members i = some (.ready position)) (hmessage : w.message? position = some message)
    (hread : X.read message = .event value) (hq : X.request value q) (hallowed : X.system.allowed w.db.db q)
    (hfresh : P.Fresh w.db.db q) (hidle : w.db.txs = fun _ => none) {s' : S} {r : R}
    (hrun : (X.system.handler q).run w.db.db = .ok (s', r)) :
    ∃ tr w', Run (Step X) w tr w' ∧ Always P.Acts tr ∧ Passed i position w w' ∧ w'.db.db = s' := by
  obtain ⟨_, hbegin, hacts⟩ := begin_run (P := P) hi hmessage hread hq hallowed hidle
  obtain ⟨_, last, hrun, hstatements, hdb, _, hcommit, t, ht, hrequest⟩ :=
    process_commit (Y := X.system) i q w.db.db w.db.answers hrun
  obtain ⟨_, hstatements, hacts'⟩ := statements_run (P := P)
    (w := { w.put i (some (.handling position)) with
      db := Config.set ⟨w.db.db, fun _ => none, w.db.answers⟩ i (some ⟨q, X.system.handler q, id, []⟩) })
    hrun hstatements
  refine ⟨_, _, (hbegin.append hstatements).snoc (.handled (put_self i _) hcommit), ?_, ⟨put_self i _, rfl, rfl⟩, rfl⟩
  refine always_snoc.mpr ⟨always_append.mpr ⟨hacts, hacts'⟩, ⟨?_, ?_, ?_⟩, ?_, ?_⟩
  · intro j u he hu
    cases he
    change last.txs i = some u at hu
    change P.Fresh last.db u.request
    obtain rfl : t = u := Option.some.inj (ht.symm.trans hu)
    rw [hdb, hrequest]
    exact hfresh
  · simp
  · simp
  · simp
  · simp

/-- A member that rejects its message sends it to the dead letter topic and goes on. -/
theorem rejecting_run {ev : Event Q} (hs : Step X w ev w') (hacts : P.Acts w ev)
    (hi : w'.members i = some (.rejecting position)) (hmessage : w'.message? position = some message)
    (hsent : ⟨message, position⟩ ∈ w'.sends) (hidle : w'.db.txs = fun _ => none) (hlog : w'.log = w.log) :
    ∃ tr w', Run (Step X) w tr w' ∧ Always P.Acts tr ∧ Passed i position w w' := by
  have hland : Step X w' (.land ⟨message, position⟩) { w' with deadLetters := ⟨message, position⟩ :: w'.deadLetters } :=
    .land hsent
  have hdone := Step.acknowledge (X := X)
    (w := { w' with deadLetters := ⟨message, position⟩ :: w'.deadLetters }) hi hmessage List.mem_cons_self
  refine ⟨_, _, ((Run.nil.snoc hs).snoc hland).snoc hdone, ?_, ⟨put_self i _, hidle, hlog⟩⟩
  refine always_snoc.mpr ⟨always_snoc.mpr ⟨always_snoc.mpr ⟨always_nil, hacts⟩, ?_⟩, ?_⟩
  · exact acts_plain (by simp) (by simp) (by simp)
  · exact acts_plain (by simp) (by simp) (by simp)

/-- A message whose request is rejected. -/
theorem rejected_run (hi : w.members i = some (.ready position)) (hmessage : w.message? position = some message)
    (hread : X.read message = .event value) (hq : X.request value q) (hallowed : X.system.allowed w.db.db q)
    (hidle : w.db.txs = fun _ => none) {e : E} (hrun : (X.system.handler q).run w.db.db = .error e)
    (he : X.rejected e = true) :
    ∃ tr w', Run (Step X) w tr w' ∧ Always P.Acts tr ∧ Passed i position w w' := by
  obtain ⟨_, hbegin, hacts⟩ := begin_run (P := P) hi hmessage hread hq hallowed hidle
  obtain ⟨_, last, hrun, hstatements, ha, hrollback⟩ :=
    process_rollback (Y := X.system) i q w.db.db w.db.answers hrun
  obtain ⟨_, hstatements, hacts'⟩ := statements_run (P := P)
    (w := { w.put i (some (.handling position)) with
      db := Config.set ⟨w.db.db, fun _ => none, w.db.answers⟩ i (some ⟨q, X.system.handler q, id, []⟩) })
    hrun hstatements
  have hreject := Step.rejected (X := X) (w := { w.put i (some (.handling position)) with db := last }) (put_self i _)
    hmessage hrollback (congrArg (List.cons (q, .error e)) ha.symm) he
  obtain ⟨_, w', hrest, hacts'', hpassed⟩ := rejecting_run hreject (acts_plain (P := P) (by simp) (by simp) (by simp))
    (put_self i _) hmessage List.mem_cons_self rfl rfl
  refine ⟨_, w', (hbegin.append hstatements).append hrest, ?_, hpassed.member, hpassed.idle, hpassed.log⟩
  exact always_append.mpr ⟨always_append.mpr ⟨hacts, hacts'⟩, hacts''⟩

theorem sound_acts {tr : List (World K S E R Q × Event Q)} (h : Sound P w) (hr : Run (Step X) w tr w')
    (ha : Always P.Acts tr) : Sound P w' :=
  hr.invariant_of_always ha h fun hsound hacts hstep => sound_step hsound hacts.1 hstep

/-- Any message of the log. -/
theorem pass_run (hable : P.Able) (h : Sound P w) (hi : w.members i = some (.ready position))
    (hmessage : w.message? position = some message) (hidle : w.db.txs = fun _ => none) :
    ∃ tr w', Run (Step X) w tr w' ∧ Always P.Acts tr ∧ Passed i position w w' := by
  cases hread : X.read message with
  | skipped =>
    exact ⟨_, _, Run.nil.snoc (.skip hi hmessage hread),
      always_snoc.mpr ⟨always_nil, acts_plain (by simp) (by simp) (by simp)⟩, put_self i _, hidle, rfl⟩
  | rejected =>
    exact rejecting_run (.malformed hi hmessage hread) (acts_plain (by simp) (by simp) (by simp)) (put_self i _)
      hmessage List.mem_cons_self hidle rfl
  | event value =>
    obtain ⟨q, hq, hallowed, hfresh, hrun⟩ := hable w.db.db value h.good fun q hq =>
      h.messages position.partition message (List.mem_of_getElem? hmessage) value q hread hq
    rcases hrun with ⟨s', r, hrun⟩ | ⟨e, hrun, he⟩
    · obtain ⟨tr, w', hr, hacts, hpassed, _⟩ := handled_run hi hmessage hread hq hallowed hfresh hidle hrun
      exact ⟨tr, w', hr, hacts, hpassed⟩
    · exact rejected_run hi hmessage hread hq hallowed hidle hrun he

/-- From its place to the end of its partition, one message after the other. -/
theorem end_run (hable : P.Able) (n : Nat) (hn : (w.log partition).length = offset + n) (h : Sound P w)
    (hi : w.members i = some (.ready ⟨partition, offset⟩)) (hidle : w.db.txs = fun _ => none) :
    ∃ tr w', Run (Step X) w tr w' ∧ Always P.Acts tr ∧ w'.log = w.log ∧
      w'.members i = some (.ready ⟨partition, (w.log partition).length⟩) := by
  induction n generalizing w offset with
  | zero =>
    refine ⟨[], w, .nil, always_nil, rfl, ?_⟩
    rw [hn, hi]
    rfl
  | succ n ih =>
    have hlt : offset < (w.log partition).length := by omega
    obtain ⟨tr, w', hr, hacts, hpassed⟩ := pass_run hable h hi (List.getElem?_eq_getElem hlt) hidle
    have hlog := hpassed.log
    have hn' : (w'.log partition).length = offset + 1 + n := by
      rw [hlog]
      omega
    obtain ⟨tr', w'', hr', hacts', hlog', hi'⟩ := ih hn' (sound_acts h hr hacts) hpassed.member hpassed.idle
    refine ⟨_, w'', hr.append hr', always_append.mpr ⟨hacts, hacts'⟩, hlog'.trans hlog, ?_⟩
    rw [hi', hlog]

/-- A first message of a new group is handled, and its offset is committed. -/
theorem first_run (P : Purpose X) (partition : Nat) (s : S) {s' : S} {r : R} (hread : X.read message = .event value)
    (hq : X.request value q) (hallowed : X.system.allowed s q) (hfresh : P.Fresh s q)
    (hrun : (X.system.handler q).run s = .ok (s', r)) :
    ∃ tr w, Run (Step X) ((World.start s).append partition message) tr w ∧ Always P.Acts tr ∧
      w.message? ⟨partition, 0⟩ = some message ∧ w.committed partition = 1 ∧ w.db.db = s' := by
  let start : World K S E R Q := (World.start s).append partition message
  have hassign : Step X start (.assign 0 partition) (start.put 0 (some (.ready ⟨partition, 0⟩))) := .assign rfl rfl
  have hmessage : (start.put 0 (some (.ready ⟨partition, 0⟩))).message? ⟨partition, 0⟩ = some message := by
    simp [start, World.message?, World.append, World.put, World.start]
  obtain ⟨_, w, hr, hacts, hpassed, hdb⟩ :=
    handled_run (put_self 0 _) hmessage hread hq hallowed hfresh rfl hrun
  refine ⟨_, _, ((Run.nil.snoc hassign).append hr).snoc (.commit hpassed.member), ?_, ?_, Function.update_self .., hdb⟩
  · refine always_snoc.mpr ⟨always_append.mpr ⟨always_snoc.mpr ⟨always_nil, ?_⟩, hacts⟩, ?_⟩
    · exact acts_plain (by simp) (by simp) (by simp)
    · exact acts_plain (by simp) (by simp) (by simp)
  · change (w.log partition)[0]? = some message
    rw [hpassed.log]
    exact hmessage

/-- A group with no transaction open can commit a whole partition, wherever its members are. -/
theorem catches_up (hable : P.Able) (h : Sound P w) (hcommitted : w.committed partition ≤ (w.log partition).length)
    (hidle : w.db.txs = fun _ => none) :
    ∃ tr w', Run (Step X) w tr w' ∧ Always P.Acts tr ∧ w'.log = w.log ∧
      w'.committed partition = (w.log partition).length := by
  have hdrop : Step X w (.drop 0) (w.put 0 none) := .drop (by rw [hidle])
  have hassign : Step X (w.put 0 none) (.assign 0 partition)
      ((w.put 0 none).put 0 (some (.ready ⟨partition, w.committed partition⟩))) :=
    .assign (put_self 0 none) (by rw [show (w.put 0 none).db.txs = fun _ => none from hidle])
  have hfirst := (Run.nil.snoc hdrop).snoc hassign
  have hacts : Always P.Acts ([] ++ [(w, .drop 0)] ++ [(w.put 0 none, .assign 0 partition)]) := by
    refine always_snoc.mpr ⟨always_snoc.mpr ⟨always_nil, ?_⟩, ?_⟩
    · exact acts_plain (by simp) (by simp) (by simp)
    · exact acts_plain (by simp) (by simp) (by simp)
  obtain ⟨n, hn⟩ := Nat.exists_eq_add_of_le hcommitted
  obtain ⟨_, w', hr, hacts', hlog, hi⟩ :=
    end_run (w := (w.put 0 none).put 0 (some (.ready ⟨partition, w.committed partition⟩))) hable n hn
      (sound_acts h hfirst hacts) (put_self 0 _) hidle
  refine ⟨_, _, (hfirst.append hr).snoc (.commit hi), ?_, hlog, Function.update_self ..⟩
  exact always_snoc.mpr ⟨always_append.mpr ⟨hacts, hacts'⟩, acts_plain (by simp) (by simp) (by simp)⟩

end

end MarketplaceApi.Kafka
