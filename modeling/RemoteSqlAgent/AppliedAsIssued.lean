import RemoteSqlAgent.CommandProvenance
import RemoteSqlAgent.RepeatedDeliveries

/-! From the dashboard to msdb. Between the control plane and a worker there is a network that may
lose, repeat, reorder and make up messages, but cannot sign. Whatever comes of that, a worker that
has the key of the control plane applies only what somebody asked for and others approved. -/
namespace RemoteSqlAgent
open Js CallProgram

/-! ## Payloads by their objects -/

/-- The discriminant of a payload, as a kind. -/
def CommandPayload.kind : CommandPayload → CommandKind
  | .toggleJob _ => .toggleJob
  | .runJob _ => .runJob
  | .stopJob _ => .stopJob
  | .upsertJob _ => .upsertJob
  | .deleteJob _ => .deleteJob
  | .upsertSchedule _ => .upsertSchedule
  | .deleteSchedule _ => .deleteSchedule
  | .upsertOperator _ => .upsertOperator
  | .deleteOperator _ => .deleteOperator
  | .setJobWriteAllowed _ => .setJobWriteAllowed

theorem CommandPayload.caseName_eq (payload : CommandPayload) : payload.caseName = payload.kind.text := by
  cases payload <;> rfl

theorem CommandKind.text_injective : Function.Injective CommandKind.text := by
  intro first second same
  cases first <;> cases second <;> first
    | rfl
    | exact absurd same (by decide)

/-- Within one kind, the values of the fields determine the payload. -/
theorem innerFields_inj {first second : CommandPayload} (kinds : first.kind = second.kind)
    (values : List.Forall₂ Same (first.innerFields.map Prod.snd) (second.innerFields.map Prod.snd)) :
    first = second := by
  cases first <;> cases second <;> cases kinds
  all_goals
    rename_i p q
    cases p
    cases q
    simp only [CommandPayload.innerFields, List.map_cons, List.map_nil, List.forall₂_cons, same_string, same_bool,
      same_number, List.Forall₂.nil, and_true] at values
    simp [values]

theorem innerFields_names {first second : CommandPayload} (kinds : first.kind = second.kind) :
    first.innerFields.map Prod.fst = second.innerFields.map Prod.fst := by
  cases first <;> cases second <;> cases kinds <;> rfl

theorem innerFields_defined (payload : CommandPayload) : ∀ field ∈ payload.innerFields, field.2.isDefined = true := by
  cases payload <;> simp [CommandPayload.innerFields]

/-- Payloads whose objects do the same are one payload. -/
theorem payload_of_same {first second : Option CommandPayload}
    (same : SamePayload (first.map CommandPayload.toObject) (second.map CommandPayload.toObject)) :
    first = second := by
  cases first with
  | none =>
    cases second with
    | none => rfl
    | some second => exact same.elim
  | some first =>
    cases second with
    | none => exact same.elim
    | some second =>
      obtain ⟨names, inner⟩ := same
      have kinds : first.kind = second.kind := by
        apply CommandKind.text_injective
        rw [← first.caseName_eq, ← second.caseName_eq]
        exact names
      have values := Same.values_of_names inner (innerFields_names kinds) (innerFields_defined first)
        (innerFields_defined second)
      exact congrArg some (innerFields_inj kinds values)

/-- What a worker decoded and what was signed are the same if their signed bytes are. -/
structure SameCommand (first second : Command) : Prop where
  id : first.id = second.id
  instanceName : first.instanceName = second.instanceName
  issuedAt : first.issuedAt.getD ⟨0, 0⟩ = second.issuedAt.getD ⟨0, 0⟩
  payload : first.payload = second.payload

theorem sameCommand_of_bytes {crypto : Crypto} (injective : Function.Injective crypto.sha256) {first second : Command}
    (wellFormed : first.toObject.WellFormed) (wellFormed' : second.toObject.WellFormed) {bytes : List UInt8}
    (left : commandSigningBytes crypto first.toObject = .ok bytes)
    (right : commandSigningBytes crypto second.toObject = .ok bytes) : SameCommand first second := by
  obtain ⟨hash, hashed, prefixed⟩ := bind_eq_ok.mp left
  obtain ⟨hash', hashed', prefixed'⟩ := bind_eq_ok.mp right
  have parts := lengthPrefixed_inj prefixed prefixed'
  simp only [List.map_cons, List.map_nil, List.cons.injEq, and_true] at parts
  obtain ⟨ids, kinds, hashes, times, instances⟩ := parts
  have kind := utf8_injective wellFormed.kind wellFormed'.kind kinds
  obtain rfl := utf8_injective (commandPayloadHash_wellFormed hashed) (commandPayloadHash_wellFormed hashed') hashes
  exact {
    id := utf8_injective wellFormed.id wellFormed'.id ids
    instanceName := utf8_injective wellFormed.instanceName wellFormed'.instanceName instances
    issuedAt := issuedAtText_inj (utf8_injective (issuedAtText_wellFormed _) (issuedAtText_wellFormed _) times)
    payload := payload_of_same (samePayload_of_hash injective wellFormed.kind kind hashed hashed') }

/-! ## The network -/

/-- The control plane signed these bytes for a command that it sent. -/
def SignedFor (config : ServiceConfig) (run : List CommandStep) (bytes : List UInt8) : Prop :=
  ∃ step ∈ run, ∃ workerId command, step.request = .send workerId command ∧
    commandSigningBytes config.crypto command.toObject = .ok bytes

/-- A delivery to a worker that has the key of the control plane. It was decoded from the wire, and
its signature is of nothing that was not signed for. -/
structure CanArrive (config : ServiceConfig) (publicKeyPem : JsString) (run : List CommandStep) (delivery : Delivery) :
    Prop where
  key : delivery.context.commandSigningPublicKey = publicKeyPem
  decoded : delivery.command.toObject.WellFormed
  unforged : ∀ bytes, config.crypto.verifies publicKeyPem bytes delivery.command.signature = true →
    SignedFor config run bytes

variable {config : ServiceConfig} {runtime : Runtime} {publicKeyPem : JsString} {run : List CommandStep}
  {pool : Pool CommandAnswer ServiceError Unit CommandStore CommandOperation}

def signingCrypto : Crypto := { sampleCrypto with verifies := fun _ bytes signature => signature = bytes }

def signingConfig : ServiceConfig := { sampleConfig false with crypto := signingCrypto, sign := id }

def signingRuntime : Runtime := { toggleRuntime with crypto := signingCrypto }

def sentWork : List Work := [.begin (.create (sampleCreate .toggleJob)), .steps 0 12 1700000000000]

def sentCommand : Command :=
  { toggleCommand with signature := (commandSigningBytes signingCrypto toggleCommand.toObject).toOption.getD [] }

/-- The step sends this command, or none. -/
def sendsOnly (command : Command) (step : CommandStep) : Bool :=
  match step.request with
  | .send _ other => other = command
  | _ => true

private theorem only_of_sendsOnly {command other : Command} {step : CommandStep} {workerId : JsString}
    (only : sendsOnly command step = true) (sends : step.request = .send workerId other) : other = command := by
  rw [sendsOnly, sends] at only
  exact of_decide_eq_true only

def sentDelivery : Delivery where
  command := sentCommand
  context := toggleContext
  clock := toggleClock
  transcript := toggleTranscript (.ok [])
  result := .ok ((ok none).toResult sentCommand toggleClock)

theorem sent_passes : gates signingRuntime sentCommand toggleContext .empty toggleClock.checkedAt = none := by
  decide +kernel

theorem sent_signed : commandSigningBytes signingCrypto sentCommand.toObject = .ok sentCommand.signature := by
  decide +kernel

def sentHandler : Handler where
  outbox := toggleOutbox
  now := toggleClock.repliedAt
  applied := [sentDelivery]

theorem sentHandler_reachable {arrives : Delivery → Prop} (kind : arrives sentDelivery) :
    sentHandler.Reachable signingRuntime arrives := by
  have step : Handler.Step signingRuntime arrives (.start 1700000000000)
      ⟨toggleOutbox, toggleClock.repliedAt, [] ++ sentDelivery.passing signingRuntime .empty⟩ := by
    refine .deliver sentDelivery kind (by decide) (runs_handleCommand.mpr (.inr ⟨sent_passes, .ok (ok none), ?_, rfl⟩))
    exact .call _ (.call _ (.call _ (.call _ (.call _ (.done _)))))
  have passing : sentDelivery.passing signingRuntime .empty = [sentDelivery] := by
    simp [Delivery.passing, sentDelivery, sent_passes]
  rw [passing] at step
  exact ⟨1700000000000, .single step⟩

end RemoteSqlAgent
