import SpotCapacity.Session
import SpotCapacity.Proofs.Outcome

/-!
# The conduct of acts

What an act does whatever session it runs in. Some acts end in the same way and make the same calls
in every session of a kind that they keep (`Act.Returns`, `Act.Calls`); of others it is only known
what holds of a value that they end with (`Act.Yields`). All three compose along the binds of an act,
so that the conduct of a whole follows from that of its parts, and not from the sessions that pass
between them.
-/

namespace SpotCapacity

/-- A kind of session that an addition to the trace does not leave. -/
class SessionKind (kind : Session → Prop) : Prop where
  note : ∀ {session : Session} (event : Event), kind session → kind (session.note event)

def anySession : Session → Prop := fun _ => True

instance : SessionKind anySession := ⟨fun _ _ => trivial⟩

namespace Act

variable {α β : Type} {kind : Session → Prop}

/-- An act ends with the same value or fault in every session of a kind. -/
def Returns (kind : Session → Prop) (act : Act α) (result : Except Fault α) : Prop :=
  ∀ session, kind session → (act session).1 = result ∧ kind (act session).2

/-- An act makes the same calls in every session of a kind. -/
def Calls (kind : Session → Prop) (act : Act α) (calls : List ApiCall) : Prop :=
  ∀ session, kind session →
    (act session).2.calls = session.calls ++ calls ∧ kind (act session).2

/-- Whatever an act ends with, if it ends with a value, has a property. -/
def Yields (act : Act α) (holds : α → Prop) : Prop :=
  ∀ session value, (act session).1 = .ok value → holds value

section

variable {σ ε : Type}

/-- After an act that succeeds, the next one runs in the session that it leaves. -/
theorem bind_of_ok {act : ExceptT ε (StateM σ) α} {session later : σ} {value : α}
    (ended : act session = (.ok value, later)) (next : α → ExceptT ε (StateM σ) β) :
    (act >>= next) session = next value later := by
  simp only [bind, ExceptT.bind, ExceptT.mk, StateT.bind, ended, ExceptT.bindCont]

/-- An act that fails ends what comes after it. -/
theorem bind_of_error {act : ExceptT ε (StateM σ) α} {session later : σ} {fault : ε}
    (ended : act session = (.error fault, later)) (next : α → ExceptT ε (StateM σ) β) :
    (act >>= next) session = (.error fault, later) := by
  simp only [bind, ExceptT.bind, ExceptT.mk, StateT.bind, ended, ExceptT.bindCont, pure,
    StateT.pure]

end

/-- An act that returns a result in every session comes to it. -/
theorem Returns.comes {act : Act α} {result : Except Fault α} (returned : act.Returns anySession result)
    (session : Session) : (act session).1 = result :=
  (returned session trivial).1

/-- An act and the one after it return what their results come to together. -/
theorem Returns.bind {act : Act α} {next : α → Act β} {result : Except Fault α}
    {results : α → Except Fault β} (first : act.Returns kind result)
    (second : ∀ value, result = .ok value → (next value).Returns kind (results value)) :
    (act >>= next).Returns kind (result >>= results) := by
  intro session valid
  obtain ⟨same, kept⟩ := first session valid
  rcases ended : act session with ⟨fault | value, later⟩
  all_goals rw [ended] at same kept; subst same
  · rw [bind_of_error ended]
    exact ⟨rfl, kept⟩
  · rw [bind_of_ok ended]
    exact second _ rfl later kept

/-- An act goes on after a first part that never fails. -/
theorem Returns.bind_ok {act : Act α} {next : α → Act β} {value : α} {result : Except Fault β}
    (first : act.Returns kind (.ok value)) (second : (next value).Returns kind result) :
    (act >>= next).Returns kind result := by
  have both : (act >>= next).Returns kind (Except.ok value >>= fun _ => result) :=
    first.bind fun other same => Except.ok.inj same ▸ second
  exact both

/-- An act whose first part fails ends with its fault. -/
theorem Returns.bind_error {act : Act α} {fault : Fault} (failed : act.Returns kind (.error fault))
    (next : α → Act β) : (act >>= next).Returns kind (.error fault) := by
  have both : (act >>= next).Returns kind (Except.error fault >>= fun _ => .error fault) :=
    failed.bind fun _ same => by cases same
  exact both

/-- A value is returned as it is. -/
theorem returns_pure (value : α) : (pure value : Act α).Returns kind (.ok value) :=
  fun _ valid => ⟨rfl, valid⟩

/-- A fault that is thrown is returned. -/
theorem returns_throw (fault : Fault) : (throw fault : Act α).Returns kind (.error fault) :=
  fun _ valid => ⟨rfl, valid⟩

/-- An outcome that is known is returned as it is. -/
theorem returns_ofExcept (result : Except Fault α) :
    (Act.ofExcept result).Returns kind result := by
  cases result with
  | error fault => exact returns_throw fault
  | ok value => exact returns_pure value

/-- An act whose outcome is taken as a value returns that outcome. -/
theorem Returns.outcome {act : Act α} {result : Except Fault α} (returned : act.Returns kind result) :
    (Act.outcome act).Returns kind (.ok result) := by
  intro session valid
  obtain ⟨same, kept⟩ := returned session valid
  exact ⟨congrArg Except.ok same, kept⟩

section

variable [SessionKind kind]

/-- Noting an event returns nothing. -/
theorem returns_note (event : Event) : (Act.note event).Returns kind (.ok ()) :=
  fun _ valid => ⟨rfl, SessionKind.note event valid⟩

/-- Writing a record returns nothing. -/
theorem returns_log (severity : Severity) (component : Component) (message : String) :
    (Act.log severity component message).Returns kind (.ok ()) :=
  fun _ valid => ⟨rfl, SessionKind.note _ valid⟩

end

/-- An act that makes no calls after those of its first part. -/
theorem Calls.bind_silent {act : Act α} {next : α → Act β} {calls : List ApiCall}
    (first : act.Calls kind calls) (second : ∀ value, (next value).Calls kind []) :
    (act >>= next).Calls kind calls := by
  intro session valid
  obtain ⟨made, kept⟩ := first session valid
  rcases ended : act session with ⟨fault | value, later⟩
  all_goals rw [ended] at made kept
  · rw [bind_of_error ended]
    exact ⟨made, kept⟩
  · obtain ⟨none, still⟩ := second value later kept
    rw [bind_of_ok ended]
    exact ⟨by rw [none, made, List.append_nil], still⟩

/-- An act that goes on after its first part makes the calls of both parts. -/
theorem Calls.bind {act : Act α} {next : α → Act β} {value : α} {calls more : List ApiCall}
    (first : act.Calls kind calls) (returned : act.Returns kind (.ok value))
    (second : (next value).Calls kind more) : (act >>= next).Calls kind (calls ++ more) := by
  intro session valid
  obtain ⟨made, kept⟩ := first session valid
  have same := (returned session valid).1
  rcases ended : act session with ⟨result, later⟩
  rw [ended] at made kept same
  subst same
  obtain ⟨others, still⟩ := second later kept
  rw [bind_of_ok ended]
  exact ⟨by rw [others, made, List.append_assoc], still⟩

/-- An act whose first part fails makes the calls of that part only. -/
theorem Calls.bind_error {act : Act α} {calls : List ApiCall} {fault : Fault}
    (first : act.Calls kind calls) (failed : act.Returns kind (.error fault)) (next : α → Act β) :
    (act >>= next).Calls kind calls := by
  intro session valid
  have made := first session valid
  have same := (failed session valid).1
  rcases ended : act session with ⟨result, later⟩
  rw [ended] at made same
  subst same
  rw [bind_of_error ended]
  exact made

/-- A value makes no call. -/
theorem calls_pure (value : α) : (pure value : Act α).Calls kind [] :=
  fun _ valid => ⟨(List.append_nil _).symm, valid⟩

/-- A fault makes no call. -/
theorem calls_throw (fault : Fault) : (throw fault : Act α).Calls kind [] :=
  fun _ valid => ⟨(List.append_nil _).symm, valid⟩

/-- An outcome that is known makes no call. -/
theorem calls_ofExcept (result : Except Fault α) : (Act.ofExcept result).Calls kind [] := by
  cases result with
  | error fault => exact calls_throw fault
  | ok value => exact calls_pure value

/-- Taking the outcome of an act makes the calls of the act. -/
theorem Calls.outcome {act : Act α} {calls : List ApiCall} (made : act.Calls kind calls) :
    (Act.outcome act).Calls kind calls := fun session valid => made session valid

/-- A call that is noted is made. -/
theorem calls_called [SessionKind kind] (call : ApiCall) :
    (Act.note (.called call)).Calls kind [call] := by
  intro session valid
  refine ⟨?_, SessionKind.note _ valid⟩
  change Session.calls (session.note (.called call)) = _
  simp only [Session.note, Session.calls, List.filterMap_append, List.filterMap_cons,
    List.filterMap_nil]

/-- Writing a record makes no call. -/
theorem calls_log [SessionKind kind] (severity : Severity) (component : Component)
    (message : String) : (Act.log severity component message).Calls kind [] := by
  intro session valid
  refine ⟨?_, SessionKind.note _ valid⟩
  change Session.calls (session.log severity component message) = _
  simp only [Session.log, Session.note, Session.calls, List.filterMap_append,
    List.filterMap_cons, List.filterMap_nil]

section

variable {holds : α → Prop}

/-- What holds of a value can be used for the act that goes on with it. -/
theorem Yields.bind {act : Act α} {next : α → Act β} {after : β → Prop} (first : act.Yields holds)
    (second : ∀ value, holds value → (next value).Yields after) : (act >>= next).Yields after := by
  intro session result came
  rcases ended : act session with ⟨fault | value, later⟩
  · rw [bind_of_error ended] at came
    cases came
  · rw [bind_of_ok ended] at came
    exact second value (first session value (congrArg Prod.fst ended)) later result came

theorem yields_pure {value : α} (true : holds value) : (pure value : Act α).Yields holds := by
  intro session result same
  cases same
  exact true

theorem yields_throw (fault : Fault) : (throw fault : Act α).Yields holds := by
  intro session result same
  cases same

/-- What holds of the value of an outcome holds of what it yields. -/
theorem yields_ofExcept {result : Except Fault α} (true : ∀ value, result = .ok value → holds value) :
    (Act.ofExcept result).Yields holds := by
  cases result with
  | error fault => exact yields_throw fault
  | ok value => exact yields_pure (true value rfl)

theorem yields_any (act : Act α) : act.Yields fun _ => True := fun _ _ _ => trivial

/-- Every act yields a value that it comes to in some session. -/
theorem yields_self (act : Act α) :
    act.Yields fun value => ∃ session, (act session).1 = .ok value :=
  fun session _ came => ⟨session, came⟩

/-- An act yields what it returns. -/
theorem Returns.yields {act : Act α} {result : Except Fault α}
    (returned : act.Returns anySession result) : act.Yields fun value => result = .ok value :=
  fun session _ came => (returned.comes session).symm.trans came

/-- What an act yields holds of its outcome, if that is a value. -/
theorem Yields.outcome {act : Act α} (first : act.Yields holds) :
    (Act.outcome act).Yields fun result => ∀ value, result = .ok value → holds value := by
  intro session result same value came
  cases same
  exact first session value came

end

end Act

end SpotCapacity
