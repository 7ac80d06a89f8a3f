import GroupStore.Proofs.Payload
import GroupStore.Proofs.Replies
import GroupStore.Proofs.Reports

/-!
# Results that look alike from outside

Contents are alike if they hold results under the same keys with the same exchange ids and
expiries, and payloads of the same sizes.  What a call says of its results, in the wording of its
failure and in its report, is then the same for both as long as its codec has an outcome of the
same class; only two payloads under other labels are told apart, by their labels.

* `Payload.Verdict` — the class of a codec's outcome;
* `Payload.Alike`, `Version.Alike`, `Contents.Alike` — what looks alike;
* `Running.saidOf` — the wording of a call's failure and its report;
* `Running.CallMeans.alike` — what is said of alike contents.
-/

namespace GroupStore

/-! ### Payloads -/

namespace Payload

/-- How a codec's work ended, without what it met. -/
inductive Verdict where
  | fine
  | tooLarge
  | malformed
  | foreign
deriving DecidableEq

variable {β : Type}

/-- The class of an outcome. -/
def verdictOf : Except Fault β → Verdict
  | .ok _ => .fine
  | .error (.tooLarge _ _) => .tooLarge
  | .error .malformed => .malformed
  | .error (.otherFormat _) => .foreign

/-- The label under which nothing is read, if that is why nothing was. -/
def foreignLabel? : Except Fault β → Option String
  | .error (.otherFormat format) => some format
  | _ => none

/-- What is left of an outcome for those who do not care for the value. -/
def outcome (result : Except Fault β) : Except Fault Unit := result.map fun _ => ()

@[simp] theorem verdictOf_outcome (result : Except Fault β) :
    verdictOf (outcome result) = verdictOf result := by
  rcases result with fault | value
  · cases fault <;> rfl
  · rfl

@[simp] theorem foreignLabel?_outcome (result : Except Fault β) :
    foreignLabel? (outcome result) = foreignLabel? result := by
  rcases result with fault | value
  · cases fault <;> rfl
  · rfl

/-- Payloads of one size and, where exchanges are read of both, with one exchange id. -/
structure Alike (p q : ByteArray) : Prop where
  size : p.size = q.size
  id : ∀ limit x y, read limit p = .ok x → read limit q = .ok y → x.id = y.id

theorem Alike.refl (p : ByteArray) : Alike p p where
  size := rfl
  id := fun limit x y one other => by
    rw [one] at other
    cases other
    rfl

/-- An exchange is read only of a payload in which one is. -/
theorem read?_of_read {limit : Nat} {p : ByteArray} {x : Exchange} (ok : read limit p = .ok x) :
    read? p = some (label, x) := by
  unfold read at ok
  split at ok
  · split at ok
    · cases ok
    · rename_i format y known
      split at ok
      · rename_i own
        cases ok
        rw [known, own]
      · cases ok
  · cases ok

theorem size_of_read {limit size max : Nat} {p : ByteArray}
    (refused : read limit p = .error (.tooLarge size max)) : size = p.size ∧ max = limit := by
  unfold read at refused
  split at refused
  · split at refused
    · cases refused
    · split at refused <;> cases refused
  · cases refused
    exact ⟨rfl, rfl⟩

/-- The texts of two exchanges with one id are alike if their sizes are. -/
theorem alike_text {x y : Exchange} (id : x.id = y.id)
    (size : (text x).toUTF8.size = (text y).toUTF8.size) :
    Alike (text x).toUTF8 (text y).toUTF8 where
  size := size
  id := fun limit x' y' one other => by
    rw [id_of_read?_text (read?_of_read one), id_of_read?_text (read?_of_read other), id]

/-- Two exchanges with texts of one size are both written or both refused, for the same reason. -/
theorem write_cases {x y : Exchange} (id : x.id = y.id)
    (size : (text x).toUTF8.size = (text y).toUTF8.size) (limit : Nat) :
    (∃ p q, write limit x = .ok p ∧ write limit y = .ok q ∧ Alike p q) ∨
      ∃ n, write limit x = .error (.tooLarge n limit) ∧
        write limit y = .error (.tooLarge n limit) := by
  simp only [write, ← size]
  by_cases fits : (text x).toUTF8.size ≤ limit
  · rw [if_pos fits, if_pos fits]
    exact .inl ⟨_, _, rfl, rfl, alike_text id size⟩
  · rw [if_neg fits, if_neg fits]
    exact .inr ⟨_, rfl, rfl⟩

/-- No label is met where an exchange is written. -/
@[simp] theorem foreignLabel?_write (limit : Nat) (x : Exchange) :
    foreignLabel? (write limit x) = none := by
  simp only [write]
  split <;> rfl

/-- Of two alike payloads that are read with outcomes of one class, either exchanges with one id are
read, or nothing is for the same reason, or both have other labels. -/
theorem Alike.read_cases {p q : ByteArray} (alike : Alike p q) {limit : Nat}
    (verdictEq : verdictOf (read limit p) = verdictOf (read limit q)) :
    (∃ x y, read limit p = .ok x ∧ read limit q = .ok y ∧ x.id = y.id) ∨
      (∃ fault, read limit p = .error fault ∧ read limit q = .error fault) ∨
      ∃ one other, read limit p = .error (.otherFormat one) ∧
        read limit q = .error (.otherFormat other) := by
  rcases left : read limit p with fault | x <;> rcases right : read limit q with fault' | y <;>
    rw [left, right] at verdictEq
  · cases fault <;> cases fault' <;> cases verdictEq
    · obtain ⟨rfl, rfl⟩ := size_of_read left
      obtain ⟨rfl, rfl⟩ := size_of_read right
      exact .inr (.inl ⟨_, rfl, by rw [alike.size]⟩)
    · exact .inr (.inl ⟨_, rfl, rfl⟩)
    · exact .inr (.inr ⟨_, _, rfl, rfl⟩)
  · cases fault <;> cases verdictEq
  · cases fault' <;> cases verdictEq
  · exact .inl ⟨x, y, rfl, rfl, alike.id limit x y left right⟩

end Payload

/-! ### Contents -/

/-- Versions with the same exchange id and expiry, and alike payloads. -/
structure Version.Alike (v u : Version) : Prop where
  id : v.id = u.id
  expiresAt : v.expiresAt = u.expiresAt
  payload : Payload.Alike v.payload u.payload

/-- Two versions that look alike, or none twice. -/
abbrev HeldAlike : Option Version → Option Version → Prop := Option.Rel Version.Alike

theorem HeldAlike.filter {held held' : Option Version} (alike : HeldAlike held held') (now : Nat) :
    HeldAlike (held.filter (·.liveAt now)) (held'.filter (·.liveAt now)) := by
  cases alike with
  | none => exact .none
  | @some v u alike =>
    have live : v.liveAt now = u.liveAt now := by
      rw [Version.liveAt, Version.liveAt, alike.expiresAt]
    rw [Option.filter_some, Option.filter_some, live]
    cases u.liveAt now with
    | false => exact .none
    | true => exact .some alike

theorem HeldAlike.any_id {held held' : Option Version} (alike : HeldAlike held held')
    (id : String) : held.any (·.id = id) = held'.any (·.id = id) := by
  cases alike with
  | none => rfl
  | some alike => simp only [Option.any_some, alike.id]

theorem HeldAlike.exists_some {held held' : Option Version} (alike : HeldAlike held held') :
    (∃ v, held = some v) ↔ ∃ v, held' = some v := by
  cases alike with
  | none => exact Iff.rfl
  | some alike => exact iff_of_true ⟨_, rfl⟩ ⟨_, rfl⟩

/-- What carries an id in one carries it in the other. -/
theorem HeldAlike.exists_id {held held' : Option Version} (alike : HeldAlike held held')
    (id : String) : (∃ v, held = some v ∧ v.id = id) ↔ ∃ v, held' = some v ∧ v.id = id := by
  cases alike with
  | none => exact Iff.rfl
  | some alike => simp only [Option.some.injEq, exists_eq_left', alike.id]

/-- Contents that hold alike versions under every key. -/
def Contents.Alike (c d : Contents) : Prop := ∀ table key, HeldAlike (c table key) (d table key)

namespace Contents.Alike

variable {c d : Contents}

theorem set (alike : c.Alike d) (table : TableName) (key : List Value) {held held' : Option Version}
    (new : HeldAlike held held') : (c.set table key held).Alike (d.set table key held') := by
  intro t k
  unfold Contents.set
  split
  · exact new
  · exact alike t k

theorem confirmed (alike : c.Alike d) (s : Schema) (id : String) :
    (s.confirmed c id).Alike (s.confirmed d id) := by
  intro t k
  unfold Schema.confirmed
  rw [(alike t k).any_id]
  split
  · exact .none
  · exact alike t k

/-- Two lists of what is under a prefix name the same groups and exchange ids. -/
theorem named_perm (alike : c.Alike d) {table : TableName} {fixed : List Value}
    {found found' : List (String × Version)} (lists : c.Lists table fixed found)
    (lists' : d.Lists table fixed found') :
    (found.map fun entry => (entry.1, entry.2.id)).Perm
      (found'.map fun entry => (entry.1, entry.2.id)) := by
  have named {c : Contents} {found : List (String × Version)} (lists : c.Lists table fixed found)
      (group id : String) : (group, id) ∈ found.map (fun entry => (entry.1, entry.2.id)) ↔
        ∃ v, c table (fixed ++ [.text group]) = some v ∧ v.id = id := by
    rw [List.mem_map]
    constructor
    · rintro ⟨⟨group', v⟩, listed, identityEq⟩
      cases identityEq
      exact ⟨v, (lists.2 _ v).mp listed, rfl⟩
    · rintro ⟨v, stored, rfl⟩
      exact ⟨(group, v), (lists.2 group v).mpr stored, rfl⟩
  have nodup {c : Contents} {found : List (String × Version)} (lists : c.Lists table fixed found) :
      (found.map fun entry => (entry.1, entry.2.id)).Nodup := by
    have distinct := List.pairwise_map.mp lists.1
    exact List.pairwise_map.mpr
      (distinct.imp fun differ identityEq => differ (Prod.mk.inj identityEq).1)
  refine (List.perm_ext_iff_of_nodup (nodup lists) (nodup lists')).mpr fun entry => ?_
  rw [named lists, named lists']
  exact (alike _ _).exists_id _

theorem countP_id (alike : c.Alike d) {table : TableName} {fixed : List Value}
    {found found' : List (String × Version)} (lists : c.Lists table fixed found)
    (lists' : d.Lists table fixed found') (id : String) :
    found.countP (·.2.id = id) = found'.countP (·.2.id = id) := by
  have count (found : List (String × Version)) : found.countP (·.2.id = id) =
      (found.map fun entry => (entry.1, entry.2.id)).countP (·.2 = id) := by
    rw [List.countP_map]
    rfl
  rw [count, count, (alike.named_perm lists lists').countP_eq]

/-- In order, they name them in the same order. -/
theorem identities (alike : c.Alike d) {table : TableName} {fixed : List Value}
    {found found' : List (String × Version)} (lists : c.Lists table fixed found)
    (lists' : d.Lists table fixed found') (ordered : Sorted.Ascending found)
    (ordered' : Sorted.Ascending found') :
    found.map (fun entry => (⟨entry.1, entry.2.id⟩ : Identity)) =
      found'.map fun entry => ⟨entry.1, entry.2.id⟩ := by
  have ascending {found : List (String × Version)} (ordered : Sorted.Ascending found) :
      Sorted.Ascending (found.map fun entry => (entry.1, entry.2.id)) :=
    List.pairwise_map.mpr ordered
  have identitiesEq := Sorted.eq_of_perm (ascending ordered) (ascending ordered')
    (alike.named_perm lists lists')
  have named (found : List (String × Version)) :
      found.map (fun entry => (⟨entry.1, entry.2.id⟩ : Identity)) =
        (found.map fun entry => (entry.1, entry.2.id)).map fun pair => ⟨pair.1, pair.2⟩ := by
    rw [List.map_map]
    rfl
  rw [named, named, identitiesEq]

end Contents.Alike

/-! ### What is said of alike contents -/

/-- The same call, or two that add exchanges with one id and texts of one size. -/
inductive Call.Alike : Call Exchange → Call Exchange → Prop where
  | same (call : Call Exchange) : Alike call call
  | add (key : String) {x y : Exchange} (id : x.id = y.id)
      (size : (Payload.text x).toUTF8.size = (Payload.text y).toUTF8.size) :
      Alike (.add key x) (.add key y)

/-- The wording of a failure. -/
def wording {α : Type} : Except RepositoryError α → Option String
  | .ok _ => none
  | .error e => some e.message

namespace Running

variable {S : Type} (r : Running S Exchange)

/-- What is said of a call that ended in some way: the wording of its failure and its report. -/
def saidOf (call : Call Exchange) (result : Except RepositoryError (Reply Exchange)) :
    Option String × Audit.Event := (wording result, r.reportOf call result)

/-- What the codec says in a call, if it is asked: of the exchange that is added, or of the payload
that a group holds. -/
def consulted (limit : Nat) (c : Contents) : Call Exchange → Option (Except Payload.Fault Unit)
  | .add _ x => some (Payload.outcome (Payload.write limit x))
  | .get key => (c r.schema.settings.table (r.schema.composeKey key)).map fun v =>
      Payload.outcome (Payload.read limit v.payload)
  | .confirm _ | .remove _ | .getKeys | .scan => none

variable {r} {limit : Nat} {c d : Contents}

/-- The codec tells exchanges by their ids. -/
theorem exchangeId_eq (codec : r.repository.codec = Payload.codec limit) {x y : Exchange}
    (id : x.id = y.id) :
    r.repository.codec.exchangeId x = r.repository.codec.exchangeId y := by
  rw [codec]
  exact id

/-- Reports name the exchange that was added by its id only. -/
theorem saidOf_add (codec : r.repository.codec = Payload.codec limit) {key : String}
    {x y : Exchange} (id : x.id = y.id) :
    r.saidOf (.add key x) (.ok (.stored x)) = r.saidOf (.add key y) (.ok (.stored y)) := by
  simp only [saidOf, reportOf, exchangeId_eq codec id]
  rfl

theorem saidOf_add_error (codec : r.repository.codec = Payload.codec limit) {key : String}
    {x y : Exchange} (id : x.id = y.id) (e : RepositoryError) :
    r.saidOf (.add key x) (.error e) = r.saidOf (.add key y) (.error e) := by
  simp only [saidOf, reportOf, exchangeId_eq codec id]

/-- Reports name the exchange that was found by its id only. -/
theorem saidOf_found (codec : r.repository.codec = Payload.codec limit) {key : String}
    {x y : Exchange} (id : x.id = y.id) :
    r.saidOf (.get key) (.ok (.found (some x))) = r.saidOf (.get key) (.ok (.found (some y))) := by
  simp only [saidOf, reportOf, exchangeId_eq codec id]
  rfl

/-- Two payloads under other labels are told apart by their labels. -/
theorem saidOf_foreign (key one other : String) :
    r.saidOf (.get key) (.error (.decode ((Payload.Fault.otherFormat one).message key))) =
        r.saidOf (.get key) (.error (.decode ((Payload.Fault.otherFormat other).message key))) ↔
      one = other := by
  refine ⟨fun saidEq => ?_, fun faultEq => faultEq ▸ rfl⟩
  have words : "decode error: " ++ (key ++ ": unsupported payload format " ++ one) =
      "decode error: " ++ (key ++ ": unsupported payload format " ++ other) :=
    Option.some.inj (congrArg Prod.fst saidEq)
  exact (String.append_right_inj _).mp ((String.append_right_inj _).mp words)

/-- What is said of a read of two alike versions, or of none twice. -/
theorem saidOf_read (codec : r.repository.codec = Payload.codec limit) (key : String)
    {held held' : Option Version} (alike : HeldAlike held held')
    (verdictEq : (held.map fun v => Payload.verdictOf (Payload.read limit v.payload)) =
      held'.map fun v => Payload.verdictOf (Payload.read limit v.payload)) :
    r.saidOf (.get key) (Schema.readReply r.repository.codec key held) =
        r.saidOf (.get key) (Schema.readReply r.repository.codec key held') ↔
      (held.bind fun v => Payload.foreignLabel? (Payload.read limit v.payload)) =
        held'.bind fun v => Payload.foreignLabel? (Payload.read limit v.payload) := by
  have unmarshal (p : ByteArray) : r.repository.codec.unmarshal key p =
      (Payload.read limit p).mapError fun fault => .decode (fault.message key) := by
    rw [codec]
    rfl
  cases alike with
  | none => exact iff_of_true rfl rfl
  | some alike =>
    simp only [Schema.readReply, unmarshal, Option.bind_some]
    rcases alike.payload.read_cases (Option.some.inj verdictEq) with
      ⟨x, y, one, other, id⟩ | ⟨fault, one, other⟩ | ⟨label, label', one, other⟩
    · rw [one, other]
      exact iff_of_true (saidOf_found codec id) rfl
    · rw [one, other]
      exact iff_of_true rfl rfl
    · rw [one, other]
      exact (saidOf_foreign key label label').trans
        ⟨congrArg some, Option.some.inj⟩

/-- A codec of payloads writes them, and words what keeps it from that. -/
theorem marshal_of_codec {r : Running S Exchange} (codec : r.repository.codec = Payload.codec limit)
    (key : String) (x : Exchange) : r.repository.codec.marshal key x =
      (Payload.write limit x).mapError fun fault => .encode (fault.message key) := by
  rw [codec]
  rfl

/-- Alike adds on alike contents leave alike contents, and the same is said of both. -/
theorem CallMeans.alike_add (codec : r.repository.codec = Payload.codec limit) (alike : c.Alike d)
    {now : Nat} {key : String} {x y : Exchange} (id : x.id = y.id)
    (size : (Payload.text x).toUTF8.size = (Payload.text y).toUTF8.size)
    {a b : Except RepositoryError (Reply Exchange)} {c' d' : Contents}
    (one : r.CallMeans True now c (.add key x) a c')
    (other : r.CallMeans True now d (.add key y) b d') :
    c'.Alike d' ∧ r.saidOf (.add key x) a = r.saidOf (.add key y) b := by
  simp only [CallMeans, marshal_of_codec codec] at one other
  rcases Payload.write_cases id size limit with ⟨p, q, wrote, wrote', payload⟩ | ⟨n, wrote, wrote'⟩
  · rw [wrote] at one
    rw [wrote'] at other
    obtain ⟨rfl, rfl⟩ := one
    obtain ⟨rfl, rfl⟩ := other
    have new : Version.Alike ⟨r.repository.codec.exchangeId x, p, _⟩
        ⟨r.repository.codec.exchangeId y, q, _⟩ :=
      ⟨exchangeId_eq codec id, rfl (a := Version.expiry r.schema.settings.ttlSeconds now), payload⟩
    exact ⟨alike.set _ _ (HeldAlike.filter (.some new) now), saidOf_add codec id⟩
  · rw [wrote] at one
    rw [wrote'] at other
    obtain ⟨rfl, rfl⟩ := one
    obtain ⟨rfl, rfl⟩ := other
    exact ⟨alike, saidOf_add_error codec id _⟩

/-- Alike calls on alike contents leave alike contents; and if the codec's outcomes are of one
class, the same is said of both exactly if it has met the same foreign label, or none. -/
theorem CallMeans.alike (codec : r.repository.codec = Payload.codec limit) (alike : c.Alike d)
    {now : Nat} {call call' : Call Exchange} (calls : Call.Alike call call')
    {a b : Except RepositoryError (Reply Exchange)} {c' d' : Contents}
    (one : r.CallMeans True now c call a c') (other : r.CallMeans True now d call' b d') :
    c'.Alike d' ∧ ((r.consulted limit c call).map Payload.verdictOf =
        (r.consulted limit d call').map Payload.verdictOf →
      (r.saidOf call a = r.saidOf call' b ↔
        (r.consulted limit c call).bind Payload.foreignLabel? =
          (r.consulted limit d call').bind Payload.foreignLabel?)) := by
  cases calls with
  | add key id size =>
    obtain ⟨left, said⟩ := CallMeans.alike_add codec alike id size one other
    exact ⟨left, fun _ => iff_of_true said (by simp [consulted])⟩
  | same call =>
    cases call with
    | add key x =>
      obtain ⟨left, said⟩ := CallMeans.alike_add codec alike rfl rfl one other
      exact ⟨left, fun _ => iff_of_true said (by simp [consulted])⟩
    | get key =>
      obtain ⟨rfl, rfl⟩ := one
      obtain ⟨rfl, rfl⟩ := other
      refine ⟨alike, fun verdictEq => ?_⟩
      simp only [consulted, Option.map_map, Option.bind_map, Function.comp_def,
        Payload.verdictOf_outcome, Payload.foreignLabel?_outcome] at verdictEq ⊢
      exact saidOf_read codec key (alike _ _) verdictEq
    | confirm id =>
      obtain ⟨found, lists, rfl, rfl⟩ := one
      obtain ⟨found', lists', rfl, rfl⟩ := other
      refine ⟨alike.confirmed r.schema id, fun _ => iff_of_true ?_ rfl⟩
      rw [alike.countP_id lists lists']
    | remove key =>
      obtain ⟨rfl, rfl⟩ := one
      obtain ⟨rfl, rfl⟩ := other
      exact ⟨alike.set _ _ .none, fun _ => iff_of_true rfl rfl⟩
    | getKeys =>
      obtain ⟨groups, ordered, members, rfl, rfl⟩ := one
      obtain ⟨groups', ordered', members', rfl, rfl⟩ := other
      have groupsEq : groups = groups' :=
        Sorted.eq_of_ascending_keys ordered ordered' fun group => by
        rw [members, members', (alike _ _).exists_some]
      rw [groupsEq]
      exact ⟨alike, fun _ => iff_of_true rfl rfl⟩
    | scan =>
      obtain ⟨found, lists, ordered, rfl, rfl⟩ := one
      obtain ⟨found', lists', ordered', rfl, rfl⟩ := other
      refine ⟨alike, fun _ => iff_of_true ?_ rfl⟩
      rw [alike.identities lists lists' (ordered trivial) (ordered' trivial)]

end Running

end GroupStore
