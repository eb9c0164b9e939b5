import Mathlib.Logic.Function.Basic
import ServingPlane.Proofs.Store.History

/-! # The store as two maps

    What a store holds, told without texts: under each task the ids of its
    containers and its history, and for a text that cannot be read the
    fault in it.  Every order to the store does to these two maps what its
    name says, and answers from them.  Whatever can be read stays readable
    as long as the fractions that are filed come back from their texts as
    they were. -/

namespace ServingPlane

open Json Numeric

/-! ## Records that come back as they were -/

/-- A finite number that its text is read back as. -/
def Numeric.Single.Exact (x : Single) : Prop := x.isFinite = true ∧ x.reread = .ok x

/-- Both fractions of a record are finite and come back from their texts. -/
structure RecoveryRecord.Exact (r : RecoveryRecord) : Prop where
  recommended : r.recommended.gpuMemoryUtilization.Exact
  previous : r.previous.gpuMemoryUtilization.Exact

theorem RecoveryRecord.Exact.reread {r : RecoveryRecord} (h : r.Exact) : r.reread = .ok r := by
  rw [RecoveryRecord.reread, Recommendation.reread, h.recommended.2]
  show (r.previous.reread >>= fun previous => _) = _
  rw [Recommendation.reread, h.previous.2]
  rfl

theorem mapM_reread_of_exact {records : List RecoveryRecord} (h : ∀ r ∈ records, r.Exact) :
    records.mapM RecoveryRecord.reread = .ok records := by
  induction records with
  | nil => rfl
  | cons r records ih =>
    rw [List.mapM_cons, (h r List.mem_cons_self).reread,
      ih fun s hs => h s (List.mem_cons_of_mem _ hs)]
    rfl

/-! ## Orders and answers -/

/-- What a store is asked to do. -/
inductive StoreOrder where
  | putIds (task : String) (ids : List String)
  | getIds (task : String)
  | deleteIds (task : String)
  | append (task : String) (record : RecoveryRecord) (limit : Nat)
  | list (task : String)
  /-- Close it and open it again; what was written is there. -/
  | reopen

/-- What it answers. -/
inductive StoreAnswer where
  | done
  | ids (found : Except StoreError (Option (List String)))
  | deleted (existed : Bool)
  | appended (outcome : Except StoreError Unit)
  | history (found : Except StoreError (List RecoveryRecord))

namespace StoreOrder

/-- The task whose container ids an order writes. -/
def idsWritten : StoreOrder → Option String
  | putIds task _ | deleteIds task => some task
  | _ => none

/-- The task whose history an order writes. -/
def historyWritten : StoreOrder → Option String
  | append task _ _ => some task
  | _ => none

/-- The record that an order puts in front of the history of a task. -/
def filed? (task : String) : StoreOrder → Option RecoveryRecord
  | append other record _ => if other = task then some record else none
  | _ => none

/-- The order that was the last to write the container ids of a task. -/
def lastIds (task : String) (orders : List StoreOrder) : Option StoreOrder :=
  (orders.filter (·.idsWritten = some task)).getLast?

/-- The records that orders file for a task, newest first. -/
def filed (task : String) (orders : List StoreOrder) : List RecoveryRecord :=
  (orders.filterMap (filed? task)).reverse

/-- The fractions that an order files come back as they were. -/
def Exact : StoreOrder → Prop
  | append _ record _ => record.Exact
  | _ => True

end StoreOrder

/-- Carry out one order. -/
def Store.serve (s : Store) : StoreOrder → StoreAnswer × Store
  | .putIds task ids => (.done, s.putContainerIds task ids)
  | .getIds task => (.ids (s.containerIds task), s)
  | .deleteIds task =>
    let (existed, t) := s.deleteContainerIds task
    (.deleted existed, t)
  | .append task record limit =>
    match s.appendHistory task record limit with
    | .ok t => (.appended (.ok ()), t)
    | .error cause => (.appended (.error cause), s)
  | .list task => (.history (s.listHistory task), s)
  | .reopen => (.done, s)

/-- Carry out orders one after the other. -/
def Store.serveAll (s : Store) : List StoreOrder → List StoreAnswer × Store
  | [] => ([], s)
  | o :: orders =>
    let (answer, t) := s.serve o
    let (answers, u) := t.serveAll orders
    (answer :: answers, u)

/-! ## The maps -/

/-- What stands under a key: nothing, a value, or something that cannot be read. -/
inductive Entry (α : Type) where
  | absent
  | value (a : α)
  | corrupt (fault : Fault)

namespace Entry

variable {α : Type}

/-- What a reader finds. -/
def read : Entry α → Except StoreError (Option α)
  | absent => .ok none
  | value a => .ok (some a)
  | corrupt fault => .error (.undecodable fault)

/-- Whether anything is there. -/
def isPresent : Entry α → Bool
  | absent => false
  | _ => true

/-- What a text, if there is one, is read as. -/
def ofText? (c : Codec α) : Option String → Entry α
  | none => absent
  | some text =>
    match c.ofText text with
    | .ok a => value a
    | .error fault => corrupt fault

theorem lookup_eq (c : Codec α) (table : Dict String String) (key : String) :
    Store.lookup c table key = (ofText? c (table.get? key)).read := by
  rw [Store.lookup]
  cases table.get? key with
  | none => rfl
  | some text =>
    rw [ofText?]
    dsimp only
    cases c.ofText text <;> rfl

theorem isPresent_ofText? (c : Codec α) (text : Option String) :
    (ofText? c text).isPresent = text.isSome := by
  cases text with
  | none => rfl
  | some text =>
    rw [ofText?]
    cases c.ofText text <;> rfl

theorem ofText?_of_ok {c : Codec α} {text : String} {a : α} (h : c.ofText text = .ok a) :
    ofText? c (some text) = value a := by
  rw [ofText?, h]

end Entry

/-- Container ids and histories by task. -/
structure StoreMaps where
  ids : String → Entry (List String)
  history : String → Entry (List RecoveryRecord)

namespace StoreMaps

/-- The records of a task, newest first. -/
def records (m : StoreMaps) (task : String) : Except StoreError (List RecoveryRecord) :=
  (m.history task).read.map (·.getD [])

/-- Put a record in front of a history that can be read, and keep the newest. -/
def append (m : StoreMaps) (task : String) (record : RecoveryRecord) (limit : Nat) :
    Except StoreError StoreMaps :=
  (m.records task).map fun earlier =>
    { m with history := Function.update m.history task (.value ((record :: earlier).take limit)) }

/-- Carry out one order. -/
def serve (m : StoreMaps) : StoreOrder → StoreAnswer × StoreMaps
  | .putIds task ids => (.done, { m with ids := Function.update m.ids task (.value ids) })
  | .getIds task => (.ids (m.ids task).read, m)
  | .deleteIds task =>
    (.deleted (m.ids task).isPresent, { m with ids := Function.update m.ids task .absent })
  | .append task record limit =>
    match m.append task record limit with
    | .ok n => (.appended (.ok ()), n)
    | .error cause => (.appended (.error cause), m)
  | .list task => (.history (m.records task), m)
  | .reopen => (.done, m)

/-- Carry out orders one after the other. -/
def serveAll (m : StoreMaps) : List StoreOrder → List StoreAnswer × StoreMaps
  | [] => ([], m)
  | o :: orders =>
    let (answer, n) := m.serve o
    let (answers, l) := n.serveAll orders
    (answer :: answers, l)

/-- Every history that can be read consists of records that come back. -/
def Exact (m : StoreMaps) : Prop :=
  ∀ task records, m.history task = .value records → ∀ r ∈ records, r.Exact

variable {m : StoreMaps} {task : String} {record : RecoveryRecord} {limit : Nat}
  {earlier : List RecoveryRecord}

/-- A record that comes back, in front of what is listed, leaves a history that comes back. -/
theorem Exact.kept (hm : m.Exact) (hrecord : record.Exact) (hrecords : m.records task = .ok earlier) :
    ∀ r ∈ (record :: earlier).take limit, r.Exact := by
  intro r hr
  rcases List.mem_cons.mp (List.mem_of_mem_take hr) with rfl | hr
  · exact hrecord
  rw [records] at hrecords
  cases hentry : m.history task with
  | absent =>
    rw [hentry] at hrecords
    cases hrecords
    exact absurd hr List.not_mem_nil
  | value l =>
    rw [hentry] at hrecords
    cases hrecords
    exact hm task _ hentry r hr
  | corrupt fault =>
    rw [hentry] at hrecords
    cases hrecords

theorem append_of_records (hrecords : m.records task = .ok earlier) (record : RecoveryRecord)
    (limit : Nat) : m.append task record limit = .ok { m with
      history := Function.update m.history task (.value ((record :: earlier).take limit)) } := by
  rw [append, hrecords]
  rfl

theorem Exact.serve {o : StoreOrder} (hm : m.Exact) (ho : o.Exact) : (m.serve o).2.Exact := by
  cases o with
  | append task record limit =>
    simp only [StoreMaps.serve]
    cases hrecords : m.records task with
    | error cause =>
      rw [append, hrecords]
      exact hm
    | ok earlier =>
      rw [append_of_records hrecords]
      intro other records hother
      replace hother : Function.update m.history task _ other = .value records := hother
      by_cases heq : other = task
      · subst heq
        rw [Function.update_self] at hother
        cases hother
        exact hm.kept ho hrecords
      · rw [Function.update_of_ne heq] at hother
        exact hm other records hother
  | putIds | getIds | deleteIds | list | reopen => exact hm

/-- What the ids of a task are after the order that was the last to write them. -/
def idsLeft : StoreOrder → Entry (List String)
  | .putIds _ ids => .value ids
  | _ => .absent

theorem ids_serve (m : StoreMaps) (o : StoreOrder) (task : String) :
    (m.serve o).2.ids task = if o.idsWritten = some task then idsLeft o else m.ids task := by
  have hupdate : ∀ (other : String) (e : Entry (List String)),
      Function.update m.ids other e task = if some other = some task then e else m.ids task := by
    intro other e
    simp only [Function.update_apply, Option.some.injEq, eq_comm]
  cases o with
  | putIds other ids => exact hupdate other _
  | deleteIds other => exact hupdate other _
  | append other record limit =>
    simp only [serve, append]
    cases m.records other <;> rfl
  | getIds | list | reopen => rfl

theorem ids_serveAll (m : StoreMaps) (orders : List StoreOrder) (task : String) :
    (m.serveAll orders).2.ids task
      = ((StoreOrder.lastIds task orders).map idsLeft).getD (m.ids task) := by
  induction orders generalizing m with
  | nil => rfl
  | cons o orders ih =>
    show ((m.serve o).2.serveAll orders).2.ids task = _
    rw [ih, ids_serve, StoreOrder.lastIds, StoreOrder.lastIds]
    by_cases ho : o.idsWritten = some task
    · rw [if_pos ho, List.filter_cons_of_pos (by simpa using ho), List.getLast?_cons,
        Option.map_some, Option.getD_some]
      cases (orders.filter (·.idsWritten = some task)).getLast? <;> rfl
    · rw [if_neg ho, List.filter_cons_of_neg (by simpa using ho)]

theorem records_serve (hrecords : m.records task = .ok earlier) {o : StoreOrder}
    (hlimit : ∀ record n, o = .append task record n → n = limit) :
    (m.serve o).2.records task
      = .ok (((o.filed? task).map fun r => (r :: earlier).take limit).getD earlier) := by
  cases o with
  | append other record n =>
    simp only [serve, StoreOrder.filed?]
    by_cases heq : other = task
    · subst heq
      obtain rfl := hlimit record n rfl
      rw [append_of_records hrecords, if_pos rfl]
      show (Entry.read (Function.update m.history other _ other)).map _ = _
      rw [Function.update_self]
      rfl
    · rw [if_neg heq]
      cases hother : m.records other with
      | error cause =>
        rw [append, hother]
        exact hrecords
      | ok l =>
        rw [append_of_records hother]
        show (Entry.read (Function.update m.history other _ task)).map _ = _
        rw [Function.update_of_ne (Ne.symm heq)]
        exact hrecords
  | putIds | getIds | deleteIds | list | reopen => exact hrecords

/-- Under one limit, the history is the newest of what was filed and was there. -/
theorem records_serveAll {orders : List StoreOrder} (hrecords : m.records task = .ok earlier)
    (hshort : earlier.length ≤ limit)
    (hlimit : ∀ record n, .append task record n ∈ orders → n = limit) :
    (m.serveAll orders).2.records task
      = .ok ((StoreOrder.filed task orders ++ earlier).take limit) := by
  induction orders generalizing m earlier with
  | nil =>
    show m.records task = .ok (earlier.take limit)
    rw [List.take_of_length_le hshort]
    exact hrecords
  | cons o orders ih =>
    have hfirst := records_serve hrecords (o := o) fun record n heq =>
      hlimit record n (heq ▸ List.mem_cons_self)
    have hrest : ∀ record n, .append task record n ∈ orders → n = limit := fun record n hn =>
      hlimit record n (List.mem_cons_of_mem _ hn)
    show ((m.serve o).2.serveAll orders).2.records task = _
    rw [StoreOrder.filed, List.filterMap_cons]
    cases hfiled : o.filed? task with
    | none =>
      rw [hfiled] at hfirst
      exact ih hfirst hshort hrest
    | some r =>
      rw [hfiled, Option.map_some, Option.getD_some] at hfirst
      rw [ih hfirst (List.length_take_le ..) hrest, List.reverse_cons, List.append_assoc,
        StoreOrder.filed]
      refine congrArg Except.ok ?_
      rw [List.take_append, List.take_append, List.take_take, Nat.min_eq_left (Nat.sub_le ..)]
      rfl

end StoreMaps

namespace Store

/-- The maps that a store holds. -/
def maps (s : Store) : StoreMaps where
  ids task := .ofText? idsCodec (s.containers.get? task)
  history task := .ofText? historyCodec (s.history.get? task)

variable {s t : Store} {o : StoreOrder} {orders : List StoreOrder} {task : String}

theorem containerIds_eq (s : Store) (task : String) :
    s.containerIds task = (s.maps.ids task).read :=
  Entry.lookup_eq ..

theorem listHistory_eq (s : Store) (task : String) : s.listHistory task = s.maps.records task := by
  rw [listHistory, Entry.lookup_eq]
  show _ = (s.maps.history task).read.map _
  rw [maps]
  cases (Entry.ofText? historyCodec (s.history.get? task)).read <;> rfl

theorem maps_putContainerIds (s : Store) (task : String) (ids : List String) :
    (s.putContainerIds task ids).maps
      = { s.maps with ids := Function.update s.maps.ids task (.value ids) } := by
  have hids : (s.putContainerIds task ids).maps.ids
      = Function.update s.maps.ids task (.value ids) := by
    funext other
    show Entry.ofText? idsCodec ((s.containers.insert task _).get? other) = _
    rw [Dict.get?_insert]
    by_cases h : other = task
    · subst h
      rw [if_pos rfl, Function.update_self]
      exact Entry.ofText?_of_ok (Codec.ofText_strings ids)
    · rw [if_neg h, Function.update_of_ne h]
      rfl
  exact congrArg (StoreMaps.mk · s.maps.history) hids

theorem maps_deleteContainerIds (s : Store) (task : String) :
    (s.deleteContainerIds task).2.maps
      = { s.maps with ids := Function.update s.maps.ids task .absent } := by
  have hids : (s.deleteContainerIds task).2.maps.ids
      = Function.update s.maps.ids task .absent := by
    funext other
    show Entry.ofText? idsCodec ((s.containers.erase task).get? other) = _
    rw [Dict.get?_erase]
    by_cases h : other = task
    · subst h
      rw [if_pos rfl, Function.update_self]
      rfl
    · rw [if_neg h, Function.update_of_ne h]
      rfl
  exact congrArg (StoreMaps.mk · s.maps.history) hids

theorem deleted_iff (s : Store) (task : String) :
    (s.deleteContainerIds task).1 = (s.maps.ids task).isPresent :=
  (Entry.isPresent_ofText? ..).symm

/-- Records that come back are there once they were written. -/
theorem maps_insert_history (s : Store) (task : String) {records : List RecoveryRecord}
    (h : ∀ r ∈ records, r.Exact) :
    ({ s with history := s.history.insert task (historyCodec.write records).compact } : Store).maps
      = { s.maps with history := Function.update s.maps.history task (.value records) } := by
  have hread : historyCodec.ofText (historyCodec.write records).compact = .ok records := by
    rw [ofText_historyCodec, mapM_reread_of_exact h]
  refine congrArg (StoreMaps.mk s.maps.ids ·) (funext fun other => ?_)
  show Entry.ofText? historyCodec ((s.history.insert task _).get? other) = _
  rw [Dict.get?_insert]
  by_cases ho : other = task
  · subst ho
    rw [if_pos rfl, Function.update_self]
    exact Entry.ofText?_of_ok hread
  · rw [if_neg ho, Function.update_of_ne ho]
    rfl

/-- One order does to the texts what it does to the maps. -/
theorem serve_refines (hs : s.maps.Exact) (ho : o.Exact) :
    (s.serve o).1 = (s.maps.serve o).1 ∧ (s.serve o).2.maps = (s.maps.serve o).2 := by
  cases o with
  | putIds task ids => exact ⟨rfl, s.maps_putContainerIds task ids⟩
  | getIds task => exact ⟨congrArg StoreAnswer.ids (s.containerIds_eq task), rfl⟩
  | deleteIds task =>
    exact ⟨congrArg StoreAnswer.deleted (s.deleted_iff task), s.maps_deleteContainerIds task⟩
  | append task record limit =>
    simp only [serve, StoreMaps.serve]
    rw [appendHistory_eq, s.listHistory_eq]
    cases hrecords : s.maps.records task with
    | error cause =>
      rw [StoreMaps.append, hrecords]
      exact ⟨rfl, rfl⟩
    | ok earlier =>
      rw [StoreMaps.append_of_records hrecords]
      exact ⟨rfl, s.maps_insert_history task (hs.kept ho hrecords)⟩
  | list task => exact ⟨congrArg StoreAnswer.history (s.listHistory_eq task), rfl⟩
  | reopen => exact ⟨rfl, rfl⟩

/-- So do orders one after the other. -/
theorem serveAll_refines (hs : s.maps.Exact) (ho : ∀ o ∈ orders, o.Exact) :
    (s.serveAll orders).1 = (s.maps.serveAll orders).1 ∧
      (s.serveAll orders).2.maps = (s.maps.serveAll orders).2 ∧
      (s.serveAll orders).2.maps.Exact := by
  induction orders generalizing s with
  | nil => exact ⟨rfl, rfl, hs⟩
  | cons o orders ih =>
    have hfirst := ho o List.mem_cons_self
    obtain ⟨hanswer, hmaps⟩ := serve_refines hs hfirst
    obtain ⟨hanswers, hrest, hexact⟩ := ih (s := (s.serve o).2)
      (by rw [hmaps]; exact hs.serve hfirst) fun p hp => ho p (List.mem_cons_of_mem _ hp)
    rw [hmaps] at hanswers hrest
    exact ⟨congrArg₂ List.cons hanswer hanswers, hrest, hexact⟩

/-! ## Texts that stay as they are -/

theorem containers_serve (h : o.idsWritten ≠ some task) :
    (s.serve o).2.containers.get? task = s.containers.get? task := by
  cases o with
  | putIds other ids => exact Dict.get?_insert_of_ne _ _ fun heq => h (congrArg some heq.symm)
  | deleteIds other => exact Dict.get?_erase_of_ne _ fun heq => h (congrArg some heq.symm)
  | append other record limit =>
    simp only [serve]
    cases happend : s.appendHistory other record limit with
    | error cause => rfl
    | ok t => exact congrArg (·.get? task) (containers_appendHistory happend)
  | getIds | list | reopen => rfl

theorem history_serve (h : o.historyWritten ≠ some task) :
    (s.serve o).2.history.get? task = s.history.get? task := by
  cases o with
  | append other record limit =>
    simp only [serve]
    rw [appendHistory_eq]
    cases s.listHistory other with
    | error cause => rfl
    | ok earlier => exact Dict.get?_insert_of_ne _ _ fun heq => h (congrArg some heq.symm)
  | putIds | getIds | deleteIds | list | reopen => rfl

theorem containers_serveAll (h : ∀ o ∈ orders, o.idsWritten ≠ some task) :
    (s.serveAll orders).2.containers.get? task = s.containers.get? task := by
  induction orders generalizing s with
  | nil => rfl
  | cons o orders ih =>
    exact (ih fun p hp => h p (List.mem_cons_of_mem _ hp)).trans
      (containers_serve (h o List.mem_cons_self))

theorem history_serveAll (h : ∀ o ∈ orders, o.historyWritten ≠ some task) :
    (s.serveAll orders).2.history.get? task = s.history.get? task := by
  induction orders generalizing s with
  | nil => rfl
  | cons o orders ih =>
    exact (ih fun p hp => h p (List.mem_cons_of_mem _ hp)).trans
      (history_serve (h o List.mem_cons_self))

/-- A record of ids that cannot be read is reported and left alone. -/
theorem getIds_of_corrupt {text : String} {fault : Fault} (htext : s.containers.get? task = some text)
    (hfault : idsCodec.ofText text = .error fault) :
    s.serve (.getIds task) = (.ids (.error (.undecodable fault)), s) := by
  rw [serve, containerIds, lookup, htext]
  dsimp only
  rw [hfault]

/-- A history that cannot be read is reported and left alone. -/
theorem history_of_corrupt {text : String} {fault : Fault} (htext : s.history.get? task = some text)
    (hfault : historyCodec.ofText text = .error fault) :
    s.serve (.list task) = (.history (.error (.undecodable fault)), s) ∧
      ∀ record limit,
        s.serve (.append task record limit) = (.appended (.error (.undecodable fault)), s) := by
  have hlist : s.listHistory task = .error (.undecodable fault) := by
    rw [listHistory, lookup, htext]
    dsimp only
    rw [hfault]
    rfl
  refine ⟨by rw [serve, hlist], fun record limit => ?_⟩
  rw [serve, appendHistory_eq, hlist]
  rfl

/-- The store is two maps: every run of orders answers as the maps do and
    does to them what it does to the texts.  So the ids of a task are those
    last put and not deleted since, a record is filed in front of what was
    listed, and under one limit a history is the newest of the records;
    a text that no order writes stays as it is, and one that cannot be
    read is reported and stays as well. -/
theorem orders_act_on_two_maps (hs : s.maps.Exact) (ho : ∀ o ∈ orders, o.Exact) :
    let t := (s.serveAll orders).2
    ((s.serveAll orders).1 = (s.maps.serveAll orders).1 ∧ t.maps = (s.maps.serveAll orders).2) ∧
    (∀ task, t.containerIds task = match StoreOrder.lastIds task orders with
      | some (.putIds _ ids) => .ok (some ids)
      | some _ => .ok none
      | none => s.containerIds task) ∧
    (∀ task record limit earlier, record.Exact → t.listHistory task = .ok earlier →
      ∃ u, t.appendHistory task record limit = .ok u ∧
        u.listHistory task = .ok ((record :: earlier).take limit)) ∧
    (∀ task limit earlier, s.listHistory task = .ok earlier → earlier.length ≤ limit →
      (∀ record n, .append task record n ∈ orders → n = limit) →
      t.listHistory task = .ok ((StoreOrder.filed task orders ++ earlier).take limit)) ∧
    (∀ task, ((∀ o ∈ orders, o.idsWritten ≠ some task) →
        t.containers.get? task = s.containers.get? task) ∧
      ((∀ o ∈ orders, o.historyWritten ≠ some task) →
        t.history.get? task = s.history.get? task)) ∧
    ∀ task text fault,
      (t.containers.get? task = some text → idsCodec.ofText text = .error fault →
        t.serve (.getIds task) = (.ids (.error (.undecodable fault)), t)) ∧
      (t.history.get? task = some text → historyCodec.ofText text = .error fault →
        t.serve (.list task) = (.history (.error (.undecodable fault)), t) ∧
        ∀ record limit,
          t.serve (.append task record limit) = (.appended (.error (.undecodable fault)), t)) := by
  intro t
  obtain ⟨hanswers, hmaps, hexact⟩ := serveAll_refines hs ho
  refine ⟨⟨hanswers, hmaps⟩, fun task => ?_, fun task record limit earlier hrecord hlist => ?_,
    fun task limit earlier hlist hshort hlimit => ?_,
    fun task => ⟨containers_serveAll, history_serveAll⟩,
    fun task text fault => ⟨getIds_of_corrupt, history_of_corrupt⟩⟩
  · rw [containerIds_eq, containerIds_eq, hmaps, StoreMaps.ids_serveAll]
    cases StoreOrder.lastIds task orders with
    | none => rfl
    | some o => cases o <;> rfl
  · rw [listHistory_eq] at hlist
    have hkept : ∀ r ∈ (record :: earlier).take limit, r.Exact := hexact.kept hrecord hlist
    rw [appendHistory_eq, listHistory_eq, hlist]
    refine ⟨_, rfl, ?_⟩
    rw [listHistory_eq, maps_insert_history t task hkept, StoreMaps.records]
    show (Entry.read (Function.update t.maps.history task _ task)).map _ = _
    rw [Function.update_self]
    rfl
  · rw [listHistory_eq] at hlist ⊢
    rw [hmaps]
    exact StoreMaps.records_serveAll hlist hshort hlimit

/-- A store in which the history of one task breaks off. -/
def worn : Store := ⟨.empty, .ofList [("code", "[")]⟩

/-- A recovery to nine tenths of the memory. -/
def nineTenths (timestamp : Int64) : RecoveryRecord :=
  ⟨timestamp, true, ⟨0, 0, .ofRatio false 9 10, 1⟩, ⟨16, 2, .zero, 2⟩⟩

/-- Orders on two tasks with a restart among them. -/
def restartOrders : List StoreOrder := [
  .putIds "chat" ["a"], .append "chat" (nineTenths 1) 2, .deleteIds "chat", .putIds "code" [],
  .append "chat" (nineTenths 2) 2, .reopen, .putIds "chat" ["b", "\"c\""],
  .append "chat" (nineTenths 3) 2]

theorem exact_nineTenths (timestamp : Int64) : (nineTenths timestamp).Exact where
  recommended := by
    show (Single.ofRatio false 9 10).Exact
    exact ⟨by decide, rfl⟩
  previous := by
    show Single.zero.Exact
    exact ⟨by decide, rfl⟩

/-- The last ids and the two newest records are there; the broken history is reported. -/
theorem orders_act_on_two_maps_of_broken_history :
    worn.maps.Exact ∧ (∀ o ∈ restartOrders, o.Exact) ∧
    let t := (worn.serveAll restartOrders).2
    t.containerIds "chat" = .ok (some ["b", "\"c\""]) ∧
    t.listHistory "chat" = .ok [nineTenths 3, nineTenths 2] ∧
    t.serve (.append "code" (nineTenths 4) 2)
      = (.appended (.error (.undecodable (.broken .truncated))), t) := by
  have hs : worn.maps.Exact := by
    intro task records hrecords
    replace hrecords : Entry.ofText? historyCodec (worn.history.get? task) = .value records :=
      hrecords
    cases htext : worn.history.get? task with
    | none =>
      rw [htext] at hrecords
      cases hrecords
    | some text =>
      obtain ⟨⟨⟩, rfl⟩ | ⟨⟨⟩⟩ := List.mem_cons.mp (Dict.get?_eq_some_iff.mp htext)
      rw [htext] at hrecords
      cases hrecords
  have ho : ∀ o ∈ restartOrders, o.Exact := by
    simp only [restartOrders, List.forall_mem_cons, StoreOrder.Exact, exact_nineTenths, and_self,
      List.not_mem_nil, false_imp_iff, implies_true]
  obtain ⟨-, hids, -, hlimited, hunwritten, hcorrupt⟩ := orders_act_on_two_maps hs ho
  refine ⟨hs, ho, hids "chat", ?_, ?_⟩
  · refine hlimited "chat" 2 [] rfl (Nat.zero_le 2) fun record n hn => ?_
    simp only [restartOrders, List.mem_cons, List.not_mem_nil, reduceCtorEq, false_or, or_false,
      StoreOrder.append.injEq] at hn
    omega
  · have hunread : (worn.serveAll restartOrders).2.history.get? "code" = some "[" := by
      refine (hunwritten "code").2 fun o horder => ?_
      simp only [restartOrders, List.mem_cons, List.not_mem_nil, or_false] at horder
      rcases horder with rfl | rfl | rfl | rfl | rfl | rfl | rfl | rfl <;> decide
    exact ((hcorrupt "code" "[" (.broken .truncated)).2 hunread rfl).2 (nineTenths 4) 2

end Store

end ServingPlane
