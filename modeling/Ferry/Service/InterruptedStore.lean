import Ferry.Base.Machine
import Ferry.Service.Belonging

/-!
# The store of interrupted transfers

The table `transfer_history` holds the history and the state of interrupted transfers.  Seen through the
queries for interrupted transfers it is a finite map: saving a transfer sets its entry, and every other
statement takes entries away.
-/

namespace Ferry

open Exec Machine Text

namespace Database

/-! ## The map -/

/-- A statement about the history. -/
inductive StoreStatement
  | add (transferId : Text) (record : TransferRecord)
  | save (transferId : Text) (info : InterruptedTransferInfo) (now : ℤ)
  | delete (transferId : Text)
  | expire (now : ℤ)

/-- The statement as the source runs it.  The number of rows is the result of an expiry. -/
def StoreStatement.run : StoreStatement → Exec PyError Database ℕ
  | .add transferId record => do
    addTransfer transferId record
    pure 0
  | .save transferId info now => do
    saveInterruptedTransfer transferId info now
    pure 0
  | .delete transferId => do
    deleteInterruptedTransfer transferId
    pure 0
  | .expire now => expireInterruptedTransfers now

/-- The database after a statement, which may have raised. -/
def execute (db : Database) (statement : StoreStatement) : Database := (statement.run db).2

/-- The statements of a run that returned. -/
def executed (db : Database) : List StoreStatement → List StoreStatement
  | [] => []
  | statement :: statements =>
    if (statement.run db).1.isOk then statement :: executed (db.execute statement) statements
    else executed (db.execute statement) statements

/-- The interrupted transfers by their keys. -/
abbrev InterruptedMap : Type := Text → Option InterruptedTransferInfo

/-- What a statement that returned makes of the map. -/
def StoreStatement.apply (map : InterruptedMap) : StoreStatement → InterruptedMap
  | .add transferId _ | .delete transferId => Function.update map transferId none
  | .save transferId info _ => Function.update map transferId (some info)
  | .expire now => fun transferId ↦ (map transferId).filter fun info ↦ now < info.expireAt

/-- The statement touches the entry `info` of the transfer. -/
def StoreStatement.Affects (transferId : Text) (info : InterruptedTransferInfo) : StoreStatement → Prop
  | .add other _ | .delete other | .save other _ _ => other = transferId
  | .expire now => info.expireAt ≤ now

/-- The statement is about this transfer alone. -/
def StoreStatement.Names (transferId : Text) : StoreStatement → Prop
  | .add other _ | .delete other | .save other _ _ => other = transferId
  | .expire _ => False

/-- The history entry is that of a transfer which is not interrupted. -/
def StoreStatement.Plain : StoreStatement → Prop
  | .add _ record => record.status ≠ .interrupted
  | _ => True

instance : DecidablePred StoreStatement.Plain
  | .add _ record => inferInstanceAs (Decidable (record.status ≠ .interrupted))
  | .save _ _ _ | .delete _ | .expire _ => isTrue trivial

/-- The last statement that touched the transfer saved it with these values. -/
def LastSaved (statements : List StoreStatement) (transferId : Text) (info : InterruptedTransferInfo) :
    Prop :=
  ∃ before now later, statements = before ++ .save transferId info now :: later ∧
    ∀ statement ∈ later, ¬statement.Affects transferId info

/-- A query meets no fault and can bind its parameter. -/
def Readable (db : Database) (parameter : Text) : Prop :=
  db.faults.headD false = false ∧ parameter.any isSurrogate = false

/-- The queries show the map that the statements which returned describe, an expiry takes away exactly
the entries that are due, and a statement leaves the transfers that it does not name. -/
structure RefinesMap (db : Database) (statements : List StoreStatement) : Prop where
  get : ∀ transferId info, db.Readable transferId →
    ((getInterruptedTransfer transferId db).1 = .ok (some info) ↔ LastSaved statements transferId info)
  list : ∀ senderIdentity, db.Readable senderIdentity →
    ∃ infos, (listInterruptedTransfersForPeer senderIdentity db).1 = .ok infos ∧
      infos.Pairwise (fun a b ↦ b.2.interruptedAt ≤ a.2.interruptedAt) ∧ (infos.map Prod.fst).Nodup ∧
      ∀ transferId info, (transferId, info) ∈ infos ↔
        LastSaved statements transferId info ∧ info.senderIdentity = senderIdentity
  expire : ∀ now, db.faults.headD false = false → Storable now →
    ∃ ids : List Text, (expireInterruptedTransfers now db).1 = .ok ids.length ∧ ids.Nodup ∧
      (∀ transferId, transferId ∈ ids ↔
        ∃ info, LastSaved statements transferId info ∧ info.expireAt ≤ now) ∧
      ∀ transferId, (transferId ∈ ids → (db.execute (.expire now)).interrupted transferId = none) ∧
        (transferId ∉ ids →
          (db.execute (.expire now)).transfers.get transferId = db.transfers.get transferId)
  frame : ∀ statement : StoreStatement, ∀ transferId other, statement.Names transferId →
    other ≠ transferId → (db.execute statement).interrupted other = db.interrupted other

/-! ## The history of a map -/

theorem apply_eq_some {map : InterruptedMap} {statement : StoreStatement} {transferId : Text}
    {info : InterruptedTransferInfo} : statement.apply map transferId = some info ↔
      (∃ now, statement = .save transferId info now) ∨
        map transferId = some info ∧ ¬statement.Affects transferId info := by
  cases statement with
  | add other record =>
    by_cases h : transferId = other
    · simp [StoreStatement.apply, StoreStatement.Affects, h]
    · simp [StoreStatement.apply, StoreStatement.Affects, h, Ne.symm h]
  | save other saved now =>
    by_cases h : transferId = other
    · simp [StoreStatement.apply, StoreStatement.Affects, h]
    · simp [StoreStatement.apply, StoreStatement.Affects, h, Ne.symm h]
  | delete other =>
    by_cases h : transferId = other
    · simp [StoreStatement.apply, StoreStatement.Affects, h]
    · simp [StoreStatement.apply, StoreStatement.Affects, h, Ne.symm h]
  | expire now => simp [StoreStatement.apply, StoreStatement.Affects, Option.filter_eq_some_iff]

theorem lastSaved_append_singleton {statements : List StoreStatement} {statement : StoreStatement}
    {transferId : Text} {info : InterruptedTransferInfo} :
    LastSaved (statements ++ [statement]) transferId info ↔
      (∃ now, statement = .save transferId info now) ∨
        LastSaved statements transferId info ∧ ¬statement.Affects transferId info := by
  constructor
  · rintro ⟨before, now, later, hsplit, hlater⟩
    rcases List.eq_nil_or_concat later with rfl | ⟨front, last, rfl⟩
    · have hlast := (List.append_inj' hsplit rfl).2
      exact .inl ⟨now, List.singleton_inj.mp hlast⟩
    · rw [List.concat_eq_append] at hsplit hlater
      rw [← List.cons_append, ← List.append_assoc] at hsplit
      obtain ⟨hfront, hlast⟩ := List.append_inj' hsplit rfl
      obtain rfl := List.singleton_inj.mp hlast
      refine .inr ⟨⟨before, now, front, hfront, fun other hother ↦ hlater other ?_⟩, hlater statement ?_⟩
      · exact List.mem_append_left _ hother
      · exact List.mem_append_right _ (List.mem_singleton_self _)
  · rintro (⟨now, rfl⟩ | ⟨⟨before, now, later, rfl, hlater⟩, hstatement⟩)
    · exact ⟨statements, now, [], rfl, fun other hother ↦ absurd hother List.not_mem_nil⟩
    · refine ⟨before, now, later ++ [statement], by simp, fun other hother ↦ ?_⟩
      rcases List.mem_append.mp hother with hmem | hmem
      · exact hlater other hmem
      · exact List.mem_singleton.mp hmem ▸ hstatement

/-- The entries of the map are what the last statements about them saved. -/
theorem foldl_apply_eq_some (statements : List StoreStatement) {transferId : Text}
    {info : InterruptedTransferInfo} :
    statements.foldl StoreStatement.apply (fun _ ↦ none) transferId = some info ↔
      LastSaved statements transferId info := by
  induction statements using List.reverseRecOn with
  | nil => simp [LastSaved]
  | append_singleton statements statement ih =>
    rw [List.foldl_append, List.foldl_cons, List.foldl_nil, apply_eq_some, ih,
      lastSaved_append_singleton]

/-! ## What the statements do to the table -/

/-- A statement raises and leaves the table, or returns and changes it as `R` says. -/
def Commits {α : Type} (R : α → Dict Text TransferRow → Dict Text TransferRow → Prop)
    (m : Exec PyError Database α) : Prop :=
  ∀ db, wp m (fun r t ↦ match r with
    | .error _ => t.transfers = db.transfers
    | .ok a => R a db.transfers t.transfers) db

theorem commits_bind {α β : Type} {R : β → Dict Text TransferRow → Dict Text TransferRow → Prop}
    {m : Exec PyError Database α} {f : α → Exec PyError Database β}
    (hm : Commits (fun _ before after ↦ after = before) m) (hf : ∀ a, Commits R (f a)) :
    Commits R (m >>= f) := by
  intro db
  apply wp_bind_of (hm db)
  · exact fun _ _ hsame ↦ hsame
  · intro a t hsame
    have hrest := hf a t
    rw [hsame] at hrest
    exact hrest

theorem commits_raiseIf (c : Prop) [Decidable c] (e : PyError) :
    Commits (fun _ before after ↦ after = before) (raiseIf c e : Exec PyError Database Unit) := by
  intro db
  rw [wp_raiseIf]
  exact ⟨fun _ ↦ rfl, fun _ ↦ rfl⟩

theorem commits_access : Commits (fun _ before after ↦ after = before) access := by
  intro db
  apply wp_mono (access_effect db)
  rintro (_ | _) t ⟨rfl, -⟩ <;> rfl

theorem commits_addTransfer (transferId : Text) (record : TransferRecord) :
    Commits (fun _ before after ↦ ∃ row : TransferRow, row.record.status = record.status ∧
      after = before.set transferId row) (addTransfer transferId record) := by
  intro db
  apply wp_mono (addTransfer_effect db transferId record)
  rintro (e | _) t ⟨-, ⟨hok, -, hrow⟩ | ⟨⟨e', herror⟩, -, hsame⟩⟩
  · exact nomatch hok
  · exact hsame
  · exact hrow
  · exact nomatch herror

theorem commits_saveInterruptedTransfer (transferId : Text) (info : InterruptedTransferInfo) (now : ℤ) :
    Commits (fun _ before after ↦ after = before.set transferId
      (interruptedRow info now (before.get transferId))) (saveInterruptedTransfer transferId info now) := by
  refine commits_bind commits_access fun _ ↦ commits_bind (commits_raiseIf _ _) fun _ ↦ ?_
  refine commits_bind (commits_raiseIf _ _) fun _ ↦ commits_bind (commits_raiseIf _ _) fun _ ↦ ?_
  refine commits_bind (commits_raiseIf _ _) fun _ ↦ commits_bind (commits_raiseIf _ _) fun _ ↦ ?_
  refine commits_bind (commits_raiseIf _ _) fun _ ↦ commits_bind (commits_raiseIf _ _) fun _ ↦ ?_
  exact fun db ↦ rfl

theorem commits_deleteInterruptedTransfer (transferId : Text) :
    Commits (fun _ before after ↦ (∀ other, other ≠ transferId → after.get other = before.get other) ∧
      ∀ row ∈ after.get transferId, row.record.status ≠ .interrupted)
      (deleteInterruptedTransfer transferId) := by
  refine commits_bind commits_access fun _ ↦ commits_bind (commits_raiseIf _ _) fun _ db ↦ ?_
  rw [wp_modify]
  dsimp only
  cases hrow : db.transfers.get transferId with
  | none => exact ⟨fun _ _ ↦ rfl, by simp [hrow]⟩
  | some row =>
    dsimp only
    by_cases hstatus : row.record.status = .interrupted
    · rw [if_pos hstatus]
      refine ⟨fun other hother ↦ Dict.get_set_of_ne _ _ hother, fun row' hrow' ↦ ?_⟩
      obtain rfl := Option.some.inj ((Dict.get_set_self _ _ _).symm.trans hrow')
      simp
    · rw [if_neg hstatus]
      refine ⟨fun _ _ ↦ rfl, fun row' hrow' ↦ ?_⟩
      obtain rfl := Option.some.inj (hrow.symm.trans hrow')
      exact hstatus

/-- The rows that an expiry selects. -/
def expiredItems (now : ℤ) (transfers : Dict Text TransferRow) : List (Text × TransferRow) :=
  transfers.items.filter fun item ↦ IsExpired now item.2

theorem mem_expiredItems {now : ℤ} {transfers : Dict Text TransferRow} {transferId : Text} :
    transferId ∈ (expiredItems now transfers).map Prod.fst ↔
      ∃ row, transfers.get transferId = some row ∧ IsExpired now row := by
  constructor
  · intro h
    obtain ⟨⟨key, row⟩, hmem, rfl⟩ := List.mem_map.mp h
    obtain ⟨hitem, hexpired⟩ := List.mem_filter.mp hmem
    exact ⟨row, Dict.mem_items.mp hitem, of_decide_eq_true hexpired⟩
  · rintro ⟨row, hget, hexpired⟩
    exact List.mem_map.mpr ⟨(transferId, row),
      List.mem_filter.mpr ⟨Dict.mem_items.mpr hget, decide_eq_true hexpired⟩, rfl⟩

theorem commits_expireInterruptedTransfers (now : ℤ) :
    Commits (fun n before after ↦ n = (expiredItems now before).length ∧
      after = (expiredItems now before).foldl expireRow before) (expireInterruptedTransfers now) :=
  commits_bind commits_access fun _ ↦ commits_bind (commits_raiseIf _ _) fun _ _ ↦ ⟨rfl, rfl⟩

/-- Updating the selected rows touches no other row and leaves none of them INTERRUPTED. -/
theorem get_foldl_expireRow (items : List (Text × TransferRow)) (transfers : Dict Text TransferRow)
    (transferId : Text) :
    (transferId ∉ items.map Prod.fst →
      (items.foldl expireRow transfers).get transferId = transfers.get transferId) ∧
    (transferId ∈ items.map Prod.fst →
      ∀ row ∈ (items.foldl expireRow transfers).get transferId, row.record.status ≠ .interrupted) := by
  induction items generalizing transfers with
  | nil => exact ⟨fun _ ↦ rfl, fun h ↦ absurd h List.not_mem_nil⟩
  | cons item items ih =>
    obtain ⟨hother, hsame⟩ := ih (expireRow transfers item)
    rw [List.map_cons, List.mem_cons, List.foldl_cons]
    refine ⟨fun h ↦ ?_, fun h ↦ ?_⟩
    · rw [not_or] at h
      rw [hother h.2, expireRow, Dict.get_set_of_ne _ _ h.1]
    · by_cases hmem : transferId ∈ items.map Prod.fst
      · exact hsame hmem
      · obtain rfl := h.resolve_right hmem
        intro row hrow
        rw [hother hmem, expireRow, Dict.get_set_self] at hrow
        obtain rfl := Option.some.inj hrow
        simp

/-! ## One statement -/

/-- Every INTERRUPTED row was saved. -/
def Filled (db : Database) : Prop :=
  ∀ transferId row, db.transfers.get transferId = some row → row.record.status = .interrupted →
    ∃ info, row.columns = some info

theorem interrupted_eq_some {db : Database} (hfilled : db.Filled) {transferId : Text}
    {info : InterruptedTransferInfo} : db.interrupted transferId = some info ↔
      ∃ row, db.transfers.get transferId = some row ∧ row.record.status = .interrupted ∧
        row.columns = some info := by
  unfold interrupted
  cases hrow : db.transfers.get transferId with
  | none => simp
  | some row =>
    by_cases hstatus : row.record.status = .interrupted
    · obtain ⟨saved, hsaved⟩ := hfilled transferId row hrow hstatus
      simp [hstatus, TransferRow.resume, hsaved]
    · simp [hstatus]

theorem interrupted_of_status {db : Database} {transferId : Text}
    (h : ∀ row ∈ db.transfers.get transferId, row.record.status ≠ .interrupted) :
    db.interrupted transferId = none := by
  unfold interrupted
  split
  · next row hrow => exact if_neg (h row hrow)
  · rfl

theorem isExpired_iff {db : Database} (hfilled : db.Filled) {now : ℤ} {transferId : Text} :
    (∃ row, db.transfers.get transferId = some row ∧ IsExpired now row) ↔
      ∃ info, db.interrupted transferId = some info ∧ info.expireAt ≤ now := by
  constructor
  · rintro ⟨row, hrow, hstatus, info, hinfo, hdue⟩
    exact ⟨info, (interrupted_eq_some hfilled).mpr ⟨row, hrow, hstatus, hinfo⟩, hdue⟩
  · rintro ⟨info, hinterrupted, hdue⟩
    obtain ⟨row, hrow, hstatus, hinfo⟩ := (interrupted_eq_some hfilled).mp hinterrupted
    exact ⟨row, hrow, hstatus, info, hinfo, hdue⟩

/-- One row changes and is not INTERRUPTED afterwards. -/
theorem interrupted_taken {db t : Database} {transferId : Text}
    (hother : ∀ other, other ≠ transferId → t.transfers.get other = db.transfers.get other)
    (hrow : ∀ row ∈ t.transfers.get transferId, row.record.status ≠ .interrupted) :
    t.interrupted = Function.update db.interrupted transferId none ∧ (db.Filled → t.Filled) := by
  refine ⟨funext fun other ↦ ?_, fun hfilled other row hget hstatus ↦ ?_⟩
  · by_cases h : other = transferId
    · rw [h, Function.update_self]
      exact interrupted_of_status hrow
    · rw [Function.update_of_ne h]
      exact interrupted_congr (hother other h)
  · by_cases h : other = transferId
    · rw [h] at hget
      exact absurd hstatus (hrow row hget)
    · rw [hother other h] at hget
      exact hfilled other row hget hstatus

theorem interrupted_saved {db t : Database} {transferId : Text} {info : InterruptedTransferInfo} {now : ℤ}
    (h : t.transfers = db.transfers.set transferId
      (interruptedRow info now (db.transfers.get transferId))) :
    t.interrupted = Function.update db.interrupted transferId (some info) ∧ (db.Filled → t.Filled) := by
  obtain ⟨hstatus, hcolumns⟩ : (interruptedRow info now (db.transfers.get transferId)).record.status =
      .interrupted ∧ (interruptedRow info now (db.transfers.get transferId)).columns = some info := by
    cases db.transfers.get transferId <;> exact ⟨rfl, rfl⟩
  refine ⟨funext fun other ↦ ?_, fun hfilled other row hget hinterrupted ↦ ?_⟩
  · rw [interrupted, h]
    by_cases hother : other = transferId
    · rw [hother, Dict.get_set_self, Function.update_self]
      dsimp only
      rw [if_pos hstatus, TransferRow.resume, hcolumns]
      rfl
    · rw [Dict.get_set_of_ne _ _ hother, Function.update_of_ne hother]
      rfl
  · rw [h, Dict.get_set] at hget
    split at hget
    · obtain rfl := Option.some.inj hget
      exact ⟨info, hcolumns⟩
    · exact hfilled other row hget hinterrupted

theorem interrupted_expired {db t : Database} (hfilled : db.Filled) {now : ℤ}
    (h : t.transfers = (expiredItems now db.transfers).foldl expireRow db.transfers) :
    t.interrupted = StoreStatement.apply db.interrupted (.expire now) ∧ t.Filled := by
  have hrows := fun transferId ↦
    get_foldl_expireRow (expiredItems now db.transfers) db.transfers transferId
  have hdue := fun transferId ↦
    (@mem_expiredItems now db.transfers transferId).trans (isExpired_iff hfilled)
  rw [← h] at hrows
  refine ⟨funext fun transferId ↦ ?_, fun transferId row hget hstatus ↦ ?_⟩
  · change t.interrupted transferId = (db.interrupted transferId).filter fun info ↦ now < info.expireAt
    by_cases hmem : transferId ∈ (expiredItems now db.transfers).map Prod.fst
    · obtain ⟨info, hinfo, hexpire⟩ := (hdue transferId).mp hmem
      rw [interrupted_of_status ((hrows transferId).2 hmem), hinfo]
      simp [Option.filter, hexpire]
    · rw [interrupted_congr ((hrows transferId).1 hmem)]
      cases hinfo : db.interrupted transferId with
      | none => rfl
      | some info =>
        have hlater : now < info.expireAt :=
          lt_of_not_ge fun hexpire ↦ hmem ((hdue transferId).mpr ⟨info, hinfo, hexpire⟩)
        simp [Option.filter, hlater]
  · by_cases hmem : transferId ∈ (expiredItems now db.transfers).map Prod.fst
    · exact absurd hstatus ((hrows transferId).2 hmem row hget)
    · rw [(hrows transferId).1 hmem] at hget
      exact hfilled transferId row hget hstatus

theorem commits_pure {α β : Type} {R : Dict Text TransferRow → Dict Text TransferRow → Prop}
    {m : Exec PyError Database α} (h : Commits (fun _ ↦ R) m) (b : β) :
    Commits (fun _ ↦ R) (do
      let _ ← m
      pure b) := by
  intro db
  exact wp_bind_of (h db) (fun _ _ hsame ↦ hsame) fun _ _ hcommitted ↦ hcommitted

/-- A statement that returned changes the map as described, and one that raised changes no row. -/
theorem execute_cases {db : Database} (hfilled : db.Filled) {statement : StoreStatement}
    (hplain : statement.Plain) :
    ((statement.run db).1.isOk = true ∧
      (db.execute statement).interrupted = statement.apply db.interrupted ∧ (db.execute statement).Filled) ∨
    ((statement.run db).1.isOk = false ∧ (db.execute statement).transfers = db.transfers) := by
  have hcommits : wp statement.run (fun r t ↦ (r.isOk = true ∧
      t.interrupted = statement.apply db.interrupted ∧ t.Filled) ∨
      (r.isOk = false ∧ t.transfers = db.transfers)) db := by
    cases statement with
    | add transferId record =>
      apply wp_mono (commits_pure (commits_addTransfer transferId record) 0 db)
      rintro (e | n) t h
      · exact .inr ⟨rfl, h⟩
      · obtain ⟨row, hstatus, hset⟩ := h
        have htaken := @interrupted_taken db t transferId
          (fun other hother ↦ by rw [hset, Dict.get_set_of_ne _ _ hother])
          (fun row' hrow' ↦ by
            rw [hset, Dict.get_set_self] at hrow'
            rw [← Option.some.inj hrow', hstatus]
            exact hplain)
        exact .inl ⟨rfl, htaken.1, htaken.2 hfilled⟩
    | save transferId info now =>
      apply wp_mono (commits_pure (commits_saveInterruptedTransfer transferId info now) 0 db)
      rintro (e | n) t h
      · exact .inr ⟨rfl, h⟩
      · have hsaved := @interrupted_saved db t transferId info now h
        exact .inl ⟨rfl, hsaved.1, hsaved.2 hfilled⟩
    | delete transferId =>
      apply wp_mono (commits_pure (commits_deleteInterruptedTransfer transferId) 0 db)
      rintro (e | n) t h
      · exact .inr ⟨rfl, h⟩
      · have htaken := @interrupted_taken db t transferId h.1 h.2
        exact .inl ⟨rfl, htaken.1, htaken.2 hfilled⟩
    | expire now =>
      apply wp_mono (commits_expireInterruptedTransfers now db)
      rintro (e | n) t h
      · exact .inr ⟨rfl, h⟩
      · exact .inl ⟨rfl, interrupted_expired hfilled h.2⟩
  exact hcommits

/-! ## Runs -/

/-- The queries show the statements that returned. -/
theorem interrupted_run {statements : List StoreStatement} (hplain : ∀ statement ∈ statements, statement.Plain)
    {db : Database} (hfilled : db.Filled) : (run execute db statements).Filled ∧
      (run execute db statements).interrupted =
        (executed db statements).foldl StoreStatement.apply db.interrupted := by
  induction statements generalizing db with
  | nil => exact ⟨hfilled, rfl⟩
  | cons statement statements ih =>
    have hrest := fun other hother ↦ hplain other (List.mem_cons_of_mem statement hother)
    rw [run_cons, executed]
    rcases execute_cases hfilled (hplain statement List.mem_cons_self) with
      ⟨hok, hmap, hfilled'⟩ | ⟨hraised, hsame⟩
    · rw [if_pos hok, List.foldl_cons, ← hmap]
      exact ih hrest hfilled'
    · have hmap : (db.execute statement).interrupted = db.interrupted :=
        funext fun transferId ↦ interrupted_congr (by rw [hsame])
      have hfilled' : (db.execute statement).Filled := fun transferId row hget ↦
        hfilled transferId row (hsame ▸ hget)
      rw [if_neg (by simp [hraised]), ← hmap]
      exact ih hrest hfilled'

theorem Commits.mono {α : Type} {R R' : α → Dict Text TransferRow → Dict Text TransferRow → Prop}
    {m : Exec PyError Database α} (h : Commits R m) (hR : ∀ a before after, R a before after →
      R' a before after) : Commits R' m := by
  intro db
  apply wp_mono (h db)
  rintro (e | a) t ht
  · exact ht
  · exact hR a _ _ ht

theorem interrupted_of_commits {α : Type} {m : Exec PyError Database α} {other : Text}
    (h : Commits (fun _ before after ↦ after.get other = before.get other) m) (db : Database) :
    (m db).2.interrupted other = db.interrupted other := by
  apply interrupted_congr
  have hrow : wp m (fun _ t ↦ t.transfers.get other = db.transfers.get other) db := by
    apply wp_mono (h db)
    rintro (e | a) t ht
    · exact congrArg (fun transfers ↦ Dict.get transfers other) ht
    · exact ht
  exact hrow

theorem execute_frame (db : Database) {statement : StoreStatement} {transferId other : Text}
    (hnames : statement.Names transferId) (hother : other ≠ transferId) :
    (db.execute statement).interrupted other = db.interrupted other := by
  refine interrupted_of_commits (m := statement.run) ?_ db
  cases statement with
  | add name record =>
    obtain rfl : name = transferId := hnames
    apply (commits_pure (commits_addTransfer name record) 0).mono
    rintro _ before after ⟨row, -, rfl⟩
    exact Dict.get_set_of_ne _ _ hother
  | save name info now =>
    obtain rfl : name = transferId := hnames
    apply (commits_pure (commits_saveInterruptedTransfer name info now) 0).mono
    rintro _ before after rfl
    exact Dict.get_set_of_ne _ _ hother
  | delete name =>
    obtain rfl : name = transferId := hnames
    apply (commits_pure (commits_deleteInterruptedTransfer name) 0).mono
    exact fun _ _ _ hrows ↦ hrows.1 other hother
  | expire now => exact hnames.elim

/-! ## The refinement -/

theorem query_run {α : Type} {db : Database} {parameter : Text} (hreadable : db.Readable parameter)
    (query : Database → α) :
    (do
      access
      bindText parameter
      let db ← get
      pure (query db) : Exec PyError Database α) db =
      (.ok (query { db with faults := db.faults.tail }), { db with faults := db.faults.tail }) := by
  have haccess : access db = (.ok (), { db with faults := db.faults.tail }) := by
    unfold access
    rw [get_bind_run, modify_bind_run, raiseIf, if_neg (by rw [hreadable.1]; decide)]
    rfl
  have hbind : bindText parameter { db with faults := db.faults.tail } =
      (.ok (), { db with faults := db.faults.tail }) := by
    rw [bindText, raiseIf, if_neg (by simp [hreadable.2])]
    rfl
  rw [bind_run_of_ok haccess, bind_run_of_ok hbind]
  rfl

theorem expire_run {db : Database} {now : ℤ} (hfault : db.faults.headD false = false)
    (hnow : Storable now) : expireInterruptedTransfers now db =
      (.ok (expiredItems now db.transfers).length,
        { db with
          faults := db.faults.tail
          transfers := (expiredItems now db.transfers).foldl expireRow db.transfers }) := by
  have haccess : access db = (.ok (), { db with faults := db.faults.tail }) := by
    unfold access
    rw [get_bind_run, modify_bind_run, raiseIf, if_neg (by rw [hfault]; decide)]
    rfl
  have hbind : bindInt now { db with faults := db.faults.tail } =
      (.ok (), { db with faults := db.faults.tail }) := by
    rw [bindInt, raiseIf, if_neg (by simp [hnow])]
    rfl
  rw [expireInterruptedTransfers, bind_run_of_ok haccess, bind_run_of_ok hbind]
  rfl

theorem mem_interruptedFrom {db : Database} (hfilled : db.Filled) {senderIdentity transferId : Text}
    {info : InterruptedTransferInfo} : (transferId, info) ∈ db.interruptedFrom senderIdentity ↔
      db.interrupted transferId = some info ∧ info.senderIdentity = senderIdentity := by
  rw [interruptedFrom, List.mem_mergeSort, interrupted_eq_some hfilled]
  constructor
  · intro h
    obtain ⟨⟨key, row⟩, hmem, heq⟩ := List.mem_map.mp h
    obtain ⟨rfl, hinfo⟩ := Prod.mk.inj heq
    obtain ⟨hitem, hfrom⟩ := List.mem_filter.mp hmem
    obtain ⟨hstatus, saved, hsaved, hsender⟩ := of_decide_eq_true hfrom
    have hsame : row.resume = saved := by rw [TransferRow.resume, Option.mem_def.mp hsaved, Option.getD_some]
    obtain rfl := hsame.symm.trans hinfo
    exact ⟨⟨row, Dict.mem_items.mp hitem, hstatus, hsaved⟩, hsender⟩
  · rintro ⟨⟨row, hget, hstatus, hinfo⟩, hsender⟩
    refine List.mem_map.mpr ⟨(transferId, row), List.mem_filter.mpr ⟨Dict.mem_items.mpr hget, ?_⟩, ?_⟩
    · exact decide_eq_true ⟨hstatus, info, hinfo, hsender⟩
    · rw [TransferRow.resume, hinfo, Option.getD_some]

theorem pairwise_interruptedFrom (db : Database) (senderIdentity : Text) :
    (db.interruptedFrom senderIdentity).Pairwise fun a b ↦ b.2.interruptedAt ≤ a.2.interruptedAt := by
  refine (List.pairwise_mergeSort (fun a b c hab hbc ↦ ?_) (fun a b ↦ ?_) _).imp fun h ↦ ?_
  · simp only [decide_eq_true_eq] at hab hbc ⊢
    exact hbc.trans hab
  · simpa using le_total _ _
  · simpa using h

theorem nodup_keys_filter (transfers : Dict Text TransferRow) (p : Text × TransferRow → Bool) :
    ((transfers.items.filter p).map Prod.fst).Nodup :=
  (Dict.nodup_items transfers).sublist (List.filter_sublist.map Prod.fst)

theorem nodup_interruptedFrom (db : Database) (senderIdentity : Text) :
    ((db.interruptedFrom senderIdentity).map Prod.fst).Nodup := by
  refine ((List.mergeSort_perm _ _).map Prod.fst).nodup_iff.mpr ?_
  rw [List.map_map]
  exact nodup_keys_filter _ _

def sampleInterruption (interruptedAt expireAt : ℤ) : InterruptedTransferInfo :=
  ⟨65536, 1, [], lit "phone", [], interruptedAt, expireAt⟩

/-- A transfer is interrupted, completed and interrupted again.  Another one expires. -/
def sampleStatements : List StoreStatement :=
  [.save (lit "a") (sampleInterruption 10 100) 10,
    .add (lit "a") ⟨.str (lit "phone"), lit "a.txt", 70000, .incoming, .completed, 0, []⟩,
    .save (lit "a") (sampleInterruption 20 0) 20, .save (lit "b") (sampleInterruption 30 90) 30,
    .delete (lit "c"), .save (lit "c") (sampleInterruption 40 95) 40, .expire 90]

def emptyHistory : Database where
  devices := ⟨[], .nil⟩
  transfers := ∅
  faults := [false, true]

end Database

end Ferry
