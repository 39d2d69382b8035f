import AssistedShell.Session.Builtin

/-! How a session gets its assistant. What it needs is a key and something that
sends its requests; if either is missing there is a reason, and no assistant.
With both there is an assistant, unless its conversation is to have more room than
there can be. That is decided on the first attempt. -/

namespace AssistedShell.Session

variable {σ : Type}

/-- What a session has that can have a service. -/
structure Equipped (h : Host σ) (s : Session σ) (key : Credential) : Prop where
  key_eq : Credential.ofEnvironment s.environment s.settings.keyVariable = .ok key
  client : h.setUpClient s.system s.environment = .ok ()

/-- Why a session can have no service: there is no usable key, or there is one and nothing that
sends requests. -/
inductive Lacks (h : Host σ) (s : Session σ) : (reason : String) → Prop where
  | key {f} : Credential.ofEnvironment s.environment s.settings.keyVariable = .error f →
      Lacks h s f.message
  | client {key reason} : Credential.ofEnvironment s.environment s.settings.keyVariable = .ok key →
      h.setUpClient s.system s.environment = .error reason →
      Lacks h s ("failed to set up HTTP client: " ++ ("failed to build request: " ++ reason))

/-- Whether a session, on the first use of its assistant, sets aside more room than there can be. -/
structure Overreaches (h : Host σ) (s : Session σ) : Prop where
  untried : s.assistant = .untried
  equipped : ∃ key, s.Equipped h key
  room : ¬ Conversation.Reservable s.settings.entryLimit

/-- An assistant of a session, with nothing said yet. -/
def newAssistant (h : Host σ) (s : Session σ) (key : Credential) : Assistant σ :=
  .ofService (.standard h.explain h.send s.settings key) s.settings

/-- What it comes to when a session looks for its assistant. -/
inductive Wakes (h : Host σ) (s : Session σ) : Session σ → Prop where
  | settled : s.assistant ≠ .untried → Wakes h s s
  | lacking {reason} : s.assistant = .untried → s.Lacks h reason →
      Wakes h s { s with assistant := .unavailable reason }
  | ready {key} : s.assistant = .untried → s.Equipped h key →
      Conversation.Reservable s.settings.entryLimit →
      Wakes h s { s with assistant := .ready (s.newAssistant h key) }
  | broken : s.Overreaches h → Wakes h s { s with crashed := true }

variable {h : Host σ} {s t : Session σ} {key : Credential} {reason : String}

/-- To look for the assistant changes nothing of the system. -/
theorem Wakes.system_eq (hw : s.Wakes h t) : t.system = s.system := by
  cases hw with
  | settled | lacking | ready | broken => rfl

theorem lacks_or_equipped (h : Host σ) (s : Session σ) :
    (∃ reason, s.Lacks h reason) ∨ ∃ key, s.Equipped h key := by
  cases hk : Credential.ofEnvironment s.environment s.settings.keyVariable with
  | error f => exact .inl ⟨_, .key hk⟩
  | ok key =>
    cases hc : h.setUpClient s.system s.environment with
    | error reason => exact .inl ⟨_, .client hk hc⟩
    | ok _ => exact .inr ⟨key, hk, hc⟩

theorem Lacks.not_equipped (hl : s.Lacks h reason) : ¬ s.Equipped h key := by
  rintro ⟨hk, hc⟩
  cases hl with
  | key hk' => cases hk.symm.trans hk'
  | client _ hc' => cases hc.symm.trans hc'

theorem Equipped.setUp (he : s.Equipped h key) :
    Service.setUp h s.settings s.environment s.system =
      .ok (.standard h.explain h.send s.settings key) := by
  rw [Service.setUp, he.key_eq]
  dsimp only
  rw [he.client]

theorem Lacks.exists_setUp (hl : s.Lacks h reason) :
    ∃ f, Service.setUp h s.settings s.environment s.system = .error f ∧ f.message = reason := by
  cases hl with
  | @key f hk => exact ⟨.credential f, by rw [Service.setUp, hk], rfl⟩
  | @client key reason hk hc =>
    refine ⟨.client (.build reason), ?_, rfl⟩
    rw [Service.setUp, hk]
    dsimp only
    rw [hc]

/-! ### What is decided -/

theorem wakeAssistant_of_settled (hs : s.assistant ≠ .untried) : s.wakeAssistant h = s := by
  rw [wakeAssistant]
  cases ha : s.assistant with
  | untried => exact absurd ha hs
  | ready a | unavailable reason => rfl

theorem wakeAssistant_of_lacks (hs : s.assistant = .untried) (hl : s.Lacks h reason) :
    s.wakeAssistant h = { s with assistant := .unavailable reason } := by
  obtain ⟨f, hf, rfl⟩ := hl.exists_setUp
  rw [wakeAssistant, hs, hf]

theorem wakeAssistant_of_equipped (hs : s.assistant = .untried) (he : s.Equipped h key)
    (hr : Conversation.Reservable s.settings.entryLimit) :
    s.wakeAssistant h = { s with assistant := .ready (s.newAssistant h key) } := by
  rw [wakeAssistant, hs, he.setUp]
  exact if_pos hr

theorem wakeAssistant_of_overreaches (ho : s.Overreaches h) :
    s.wakeAssistant h = { s with crashed := true } := by
  obtain ⟨key, he⟩ := ho.equipped
  rw [wakeAssistant, ho.untried, he.setUp]
  dsimp only
  rw [if_neg ho.room]

theorem wakes_wakeAssistant (h : Host σ) (s : Session σ) : s.Wakes h (s.wakeAssistant h) := by
  by_cases hs : s.assistant = .untried
  · rcases lacks_or_equipped h s with ⟨reason, hl⟩ | ⟨key, he⟩
    · rw [wakeAssistant_of_lacks hs hl]
      exact .lacking hs hl
    · by_cases hr : Conversation.Reservable s.settings.entryLimit
      · rw [wakeAssistant_of_equipped hs he hr]
        exact .ready hs he hr
      · have ho : s.Overreaches h := ⟨hs, ⟨key, he⟩, hr⟩
        rw [wakeAssistant_of_overreaches ho]
        exact .broken ho
  · rw [wakeAssistant_of_settled hs]
    exact .settled hs

end AssistedShell.Session
