import EventLog.Config
import EventLog.Proofs.Text.Decimal
import EventLog.Proofs.Text.Trimming

/-!
# Overridden settings

Values are looked up by name, one setting after the other, up to the first value that is not
acceptable.  If all are acceptable, each setting has what its value stands for, or what it had
before if it has no value; so a second override only replaces what it has a value for.

Main results:

- `Config.overlaySettings_cases`: an override takes all values, or stops at the first that is not
  acceptable.
- `Config.overlay_eq_ok_iff`: the configuration that an override leaves.
- `Config.overlay_overlay`: two overrides as one.
- `Config.isOverlaid_overlay`: what overrides do, alone and one after the other.
-/

namespace EventLog

namespace Config

/-! ## What values stand for -/

/-- The value stands for a number of sixty-four bits, with blanks around it perhaps. -/
def IsNumber (value : String) (n : Nat) : Prop :=
  ∃ word, Text.IsTrimmed value.toList word ∧ Decimal.Denotes word n ∧ n ≤ Decimal.max64

/-- The value stands for a number of records that a pool can have. -/
def IsCapacity (value : String) (n : Nat) : Prop :=
  IsNumber value n ∧ n ≤ maxPoolCapacity

/-- The value stands for a number of microseconds, which take `n` nanoseconds. -/
def IsSleep (value : String) (n : Nat) : Prop :=
  ∃ micros, IsNumber value micros ∧ micros * Duration.microsecond = n

/-- The words for yes and for no. -/
def flagWords : Bool → List Text
  | true => yesWords
  | false => noWords

/-- The value is a word for a flag in any ASCII case, with blanks around it perhaps. -/
def IsFlag (value : String) (b : Bool) : Prop :=
  ∃ word, Text.IsTrimmed value.toList word ∧ word.map Char.toLower ∈ flagWords b

theorem readNumber?_eq_some_iff {value : String} {n : Nat} :
    readNumber? value = some n ↔ IsNumber value n := by
  rw [readNumber?, Decimal.read?_eq_some_iff]
  constructor
  · intro h
    exact ⟨_, Text.trim_eq_iff.1 rfl, h⟩
  · rintro ⟨word, hword, h⟩
    rw [Text.trim_eq_iff.2 hword]
    exact h

theorem readCapacity?_eq_some_iff {value : String} {n : Nat} :
    readCapacity? value = some n ↔ IsCapacity value n := by
  rw [readCapacity?, Option.filter_eq_some_iff, readNumber?_eq_some_iff, decide_eq_true_iff]
  rfl

theorem readSleep?_eq_some_iff {value : String} {n : Nat} :
    readSleep? value = some n ↔ IsSleep value n := by
  rw [readSleep?, Option.map_eq_some_iff]
  simp only [readNumber?_eq_some_iff]
  rfl

/-- Every number of microseconds is a time to sleep. -/
theorem exists_isSleep_iff {value : String} : (∃ n, IsSleep value n) ↔ ∃ n, IsNumber value n := by
  constructor
  · rintro ⟨_, micros, hmicros, -⟩
    exact ⟨micros, hmicros⟩
  · rintro ⟨micros, hmicros⟩
    exact ⟨_, micros, hmicros, rfl⟩

/-- No word stands for yes and for no. -/
theorem not_mem_yesWords {word : Text} (h : word ∈ noWords) : word ∉ yesWords := by
  have hapart : ∀ word ∈ noWords, word ∉ yesWords := by decide
  exact hapart word h

theorem readFlag?_eq_some_iff {value : String} {b : Bool} :
    readFlag? value = some b ↔ IsFlag value b := by
  have hflag : IsFlag value b ↔ (Text.trim value.toList).map Char.toLower ∈ flagWords b := by
    constructor
    · rintro ⟨word, hword, h⟩
      rw [Text.trim_eq_iff.2 hword]
      exact h
    · intro h
      exact ⟨_, Text.trim_eq_iff.1 rfl, h⟩
  rw [hflag, readFlag?]
  generalize (Text.trim value.toList).map Char.toLower = word
  cases b with
  | true => simp [flagWords]
  | false =>
      by_cases hno : word ∈ noWords
      · simp [flagWords, hno, not_mem_yesWords hno]
      · simp [flagWords, hno]

/-- The value is acceptable for the setting. -/
def Setting.Accepts : Setting → String → Prop
  | poolCapacity, value => ∃ n, IsCapacity value n
  | idleSleep, value => ∃ n, IsNumber value n
  | drainOnShutdown, value => ∃ b, IsFlag value b

/-! ## One setting -/

/-- The configuration behind the lookup of one setting; `none` if its value is not acceptable. -/
def lookUp? (c : Config) (s : Setting) : Option String → Option Config
  | none => some c
  | some value => c.override? value s

/-- The new state of a setting is the old one if it has no value, and else what the value stands
for. -/
def Follows {α : Type} (Means : String → α → Prop) (old new : α) : Option String → Prop
  | none => new = old
  | some value => Means value new

/-- A setting that is read from its value is set to what the value stands for. -/
theorem lookUp?_eq_some_iff_of_read {α : Type} {c c' : Config} {s : Setting} {old : α}
    {read? : String → Option α} {Means : String → α → Prop} (set : α → Config) (hset : set old = c)
    (hoverride : ∀ value, c.override? value s = (read? value).map set)
    (hread : ∀ value a, read? value = some a ↔ Means value a) {value? : Option String} :
    c.lookUp? s value? = some c' ↔ ∃ new, Follows Means old new value? ∧ set new = c' := by
  cases value? with
  | none => simp [lookUp?, Follows, hset]
  | some value => simp [lookUp?, Follows, hoverride, hread]

section Settings

variable {c c' : Config} {value? : Option String}

theorem lookUp?_poolCapacity : c.lookUp? .poolCapacity value? = some c' ↔
    ∃ n, Follows IsCapacity c.poolCapacity n value? ∧ { c with poolCapacity := n } = c' :=
  lookUp?_eq_some_iff_of_read (fun a => { c with poolCapacity := a }) rfl (fun _ => rfl)
    fun _ _ => readCapacity?_eq_some_iff

theorem lookUp?_idleSleep : c.lookUp? .idleSleep value? = some c' ↔
    ∃ n, Follows IsSleep c.idleSleep n value? ∧ { c with idleSleep := n } = c' :=
  lookUp?_eq_some_iff_of_read (fun a => { c with idleSleep := a }) rfl (fun _ => rfl)
    fun _ _ => readSleep?_eq_some_iff

theorem lookUp?_drainOnShutdown : c.lookUp? .drainOnShutdown value? = some c' ↔
    ∃ b, Follows IsFlag c.drainOnShutdown b value? ∧ { c with drainOnShutdown := b } = c' :=
  lookUp?_eq_some_iff_of_read (fun a => { c with drainOnShutdown := a }) rfl (fun _ => rfl)
    fun _ _ => readFlag?_eq_some_iff

/-- A setting has a new state exactly if its value is acceptable, should it have one. -/
theorem exists_follows_iff {α : Type} {Means : String → α → Prop} {old : α} :
    (∃ new, Follows Means old new value?) ↔ ∀ value, value? = some value → ∃ a, Means value a := by
  cases value? with
  | none => simp [Follows]
  | some value => simp [Follows]

theorem exists_lookUp?_iff {s : Setting} :
    (∃ c', c.lookUp? s value? = some c') ↔ ∀ value, value? = some value → s.Accepts value := by
  cases s with
  | poolCapacity => simp [lookUp?_poolCapacity, Setting.Accepts, exists_follows_iff]
  | idleSleep => simp [lookUp?_idleSleep, Setting.Accepts, exists_follows_iff, exists_isSleep_iff]
  | drainOnShutdown =>
      simp [lookUp?_drainOnShutdown, Setting.Accepts, exists_follows_iff, -Bool.exists_bool]

end Settings

/-! ## Several settings -/

section Lookups

variable {lookup : String → Option String} {c c' c₁ : Config} {s : Setting}
  {settings : List Setting}

theorem overlaySettings_cons_of_some (h : c.lookUp? s (lookup s.key) = some c₁) :
    overlaySettings lookup c (s :: settings) =
      ⟨s.key :: (overlaySettings lookup c₁ settings).asked,
        (overlaySettings lookup c₁ settings).result⟩ := by
  rw [overlaySettings]
  cases hvalue : lookup s.key with
  | none =>
      rw [hvalue] at h
      cases h
      rfl
  | some value =>
      rw [hvalue] at h
      have htaken : c.override? value s = some c₁ := h
      simp only [htaken]

theorem overlaySettings_cons_of_none (settings : List Setting)
    (h : c.lookUp? s (lookup s.key) = none) :
    ∃ value, lookup s.key = some value ∧ overlaySettings lookup c (s :: settings) =
      ⟨[s.key], .error (.invalidConfig s.key value)⟩ := by
  rw [overlaySettings]
  cases hvalue : lookup s.key with
  | none =>
      rw [hvalue] at h
      cases h
  | some value =>
      rw [hvalue] at h
      have hrefused : c.override? value s = none := h
      exact ⟨value, rfl, by simp only [hrefused]⟩

theorem result_overlaySettings_cons :
    (overlaySettings lookup c (s :: settings)).result = .ok c' ↔
      ∃ c₁, c.lookUp? s (lookup s.key) = some c₁ ∧
        (overlaySettings lookup c₁ settings).result = .ok c' := by
  cases hone : c.lookUp? s (lookup s.key) with
  | none =>
      rcases overlaySettings_cons_of_none settings hone with ⟨value, -, hstop⟩
      simp [hstop]
  | some c₁ => simp [overlaySettings_cons_of_some hone]

/-- An override takes all values, or stops at the first that is not acceptable. -/
theorem overlaySettings_cases (lookup : String → Option String) (c : Config)
    (settings : List Setting) :
    (∃ c', overlaySettings lookup c settings = ⟨settings.map Setting.key, .ok c'⟩ ∧
        ∀ s ∈ settings, ∀ value, lookup s.key = some value → s.Accepts value) ∨
      ∃ before s after value, settings = before ++ s :: after ∧
        (∀ r ∈ before, ∀ v, lookup r.key = some v → r.Accepts v) ∧
        lookup s.key = some value ∧ ¬ s.Accepts value ∧
        overlaySettings lookup c settings =
          ⟨(before ++ [s]).map Setting.key, .error (.invalidConfig s.key value)⟩ := by
  induction settings generalizing c with
  | nil => exact Or.inl ⟨c, rfl, by simp⟩
  | cons s settings ih =>
      cases hone : c.lookUp? s (lookup s.key) with
      | none =>
          rcases overlaySettings_cons_of_none settings hone with ⟨value, hvalue, hstop⟩
          refine Or.inr ⟨[], s, settings, value, rfl, by simp, hvalue, ?_, hstop⟩
          intro haccepts
          have htaken : ∃ c₁, c.lookUp? s (lookup s.key) = some c₁ := by
            refine exists_lookUp?_iff.2 ?_
            intro v hv
            obtain rfl : value = v := Option.some.inj (hvalue.symm.trans hv)
            exact haccepts
          rcases htaken with ⟨c₁, hc₁⟩
          rw [hone] at hc₁
          cases hc₁
      | some c₁ =>
          have hfirst := exists_lookUp?_iff.1 ⟨c₁, hone⟩
          rw [overlaySettings_cons_of_some hone]
          rcases ih c₁ with ⟨c', hrest, hall⟩ |
            ⟨before, r, after, value, rfl, hbefore, hvalue, hrefused, hrest⟩
          · exact Or.inl ⟨c', by rw [hrest]; rfl, List.forall_mem_cons.2 ⟨hfirst, hall⟩⟩
          · exact Or.inr ⟨s :: before, r, after, value, rfl,
              List.forall_mem_cons.2 ⟨hfirst, hbefore⟩, hvalue, hrefused, by rw [hrest]; rfl⟩

end Lookups

/-! ## Overrides of a configuration -/

section Overrides

variable {c c' : Config} {lookup : String → Option String}

/-- The configuration that an override leaves: every setting follows its value, and the name of the
worker stays. -/
theorem overlay_eq_ok_iff : (c.overlay lookup).result = .ok c' ↔
    Follows IsCapacity c.poolCapacity c'.poolCapacity (lookup Setting.poolCapacity.key) ∧
      Follows IsSleep c.idleSleep c'.idleSleep (lookup Setting.idleSleep.key) ∧
      Follows IsFlag c.drainOnShutdown c'.drainOnShutdown (lookup Setting.drainOnShutdown.key) ∧
      c'.workerName = c.workerName := by
  simp only [overlay, Setting.all, result_overlaySettings_cons, lookUp?_poolCapacity,
    lookUp?_idleSleep, lookUp?_drainOnShutdown]
  constructor
  · rintro ⟨_, ⟨n, hn, rfl⟩, _, ⟨m, hm, rfl⟩, _, ⟨b, hb, rfl⟩, hend⟩
    cases hend
    exact ⟨hn, hm, hb, rfl⟩
  · rintro ⟨hn, hm, hb, hname⟩
    refine ⟨_, ⟨_, hn, rfl⟩, _, ⟨_, hm, rfl⟩, _, ⟨_, hb, rfl⟩, ?_⟩
    simp only [overlaySettings, ← hname]

/-- A setting that follows two values in turn follows the second one, or the first if there is no
second. -/
theorem Follows.or {α : Type} {Means : String → α → Prop} {a b d : α}
    {first? second? : Option String} (hfirst : Follows Means a b first?)
    (hsecond : Follows Means b d second?) : Follows Means a d (second?.or first?) := by
  cases second? with
  | none =>
      obtain rfl : d = b := hsecond
      exact hfirst
  | some value => exact hsecond

/-- A setting that follows a value follows it again without a change. -/
theorem Follows.again {α : Type} {Means : String → α → Prop} {a b : α} {value? : Option String}
    (h : Follows Means a b value?) : Follows Means b b value? := by
  cases value? with
  | none => rfl
  | some value => exact h

theorem validate_eq_ok_iff :
    c.validate = .ok () ↔ c.poolCapacity ≤ maxPoolCapacity ∧ zero ∉ c.workerName.toList := by
  unfold validate
  split
  next hlarge => simp [Nat.not_le.2 hlarge]
  next hsize =>
    split
    next hzero => simp [hzero]
    next hname => simp [hname, Nat.not_lt.1 hsize]

/-- A number of records that follows a value is one that a pool can have, if the old one is. -/
theorem Follows.le_maxPoolCapacity {old new : Nat} {value? : Option String}
    (h : Follows IsCapacity old new value?) (hold : old ≤ maxPoolCapacity) :
    new ≤ maxPoolCapacity := by
  cases value? with
  | none =>
      obtain rfl : new = old := h
      exact hold
  | some value => exact h.2

/-- An override leaves acceptable settings acceptable. -/
theorem validate_of_overlay (h : (c.overlay lookup).result = .ok c') (hc : c.validate = .ok ()) :
    c'.validate = .ok () := by
  rcases overlay_eq_ok_iff.1 h with ⟨hcapacity, -, -, hname⟩
  rcases validate_eq_ok_iff.1 hc with ⟨hsize, hzero⟩
  exact validate_eq_ok_iff.2 ⟨hcapacity.le_maxPoolCapacity hsize, hname ▸ hzero⟩

/-- An override succeeds exactly if every value that a setting has is acceptable. -/
theorem exists_overlay_eq_ok_iff : (∃ c', (c.overlay lookup).result = .ok c') ↔
    ∀ s ∈ Setting.all, ∀ value, lookup s.key = some value → s.Accepts value := by
  rw [overlay]
  rcases overlaySettings_cases lookup c Setting.all with ⟨c', hresult, hall⟩ |
    ⟨before, s, after, value, hsettings, -, hvalue, hrefused, hresult⟩
  · exact iff_of_true ⟨c', by rw [hresult]⟩ hall
  · refine iff_of_false (by simp [hresult]) ?_
    intro hall
    exact hrefused (hall s (by simp [hsettings]) value hvalue)

/-- An override that succeeds asks for every setting. -/
theorem asked_of_overlay_eq_ok (h : (c.overlay lookup).result = .ok c') :
    (c.overlay lookup).asked = Setting.all.map Setting.key := by
  rw [overlay] at h ⊢
  rcases overlaySettings_cases lookup c Setting.all with ⟨_, hresult, -⟩ |
    ⟨_, _, _, _, -, -, -, -, hresult⟩
  · rw [hresult]
  · simp [hresult] at h

/-- An override fails with the first value that is not acceptable, and asks for nothing behind
it. -/
theorem overlay_eq_error {fault : Fault} (h : (c.overlay lookup).result = .error fault) :
    ∃ before s after value, Setting.all = before ++ s :: after ∧
      (∀ r ∈ before, ∀ v, lookup r.key = some v → r.Accepts v) ∧
      lookup s.key = some value ∧ ¬ s.Accepts value ∧
      fault = .invalidConfig s.key value ∧
      (c.overlay lookup).asked = (before ++ [s]).map Setting.key := by
  rw [overlay] at h ⊢
  rcases overlaySettings_cases lookup c Setting.all with ⟨_, hresult, -⟩ |
    ⟨before, s, after, value, hsettings, hbefore, hvalue, hrefused, hresult⟩
  · simp [hresult] at h
  · rw [hresult] at h ⊢
    cases h
    exact ⟨before, s, after, value, hsettings, hbefore, hvalue, hrefused, rfl, rfl⟩

/-- Two overrides that succeed do what one does that asks the second lookup before the first. -/
theorem overlay_overlay {c₁ c₂ : Config} {later : String → Option String}
    (hfirst : (c.overlay lookup).result = .ok c₁) (hsecond : (c₁.overlay later).result = .ok c₂) :
    (c.overlay fun key => (later key).or (lookup key)).result = .ok c₂ := by
  rcases overlay_eq_ok_iff.1 hfirst with ⟨hcapacity₁, hsleep₁, hdrain₁, hname₁⟩
  rcases overlay_eq_ok_iff.1 hsecond with ⟨hcapacity₂, hsleep₂, hdrain₂, hname₂⟩
  exact overlay_eq_ok_iff.2 ⟨hcapacity₁.or hcapacity₂, hsleep₁.or hsleep₂, hdrain₁.or hdrain₂,
    hname₂.trans hname₁⟩

/-- The same override again changes nothing. -/
theorem overlay_again (h : (c.overlay lookup).result = .ok c') :
    (c'.overlay lookup).result = .ok c' := by
  rcases overlay_eq_ok_iff.1 h with ⟨hcapacity, hsleep, hdrain, -⟩
  exact overlay_eq_ok_iff.2 ⟨hcapacity.again, hsleep.again, hdrain.again, rfl⟩

/-- What a configuration becomes under an override. -/
structure IsOverlaid (c : Config) (lookup : String → Option String) (o : Overlay) : Prop where
  /-- It succeeds exactly if every value that a setting has is acceptable. -/
  ok_iff : (∃ c', o.result = .ok c') ↔
    ∀ s ∈ Setting.all, ∀ value, lookup s.key = some value → s.Accepts value
  /-- Every setting follows its value, and the rest stays. -/
  ok : ∀ c', o.result = .ok c' →
    Follows IsCapacity c.poolCapacity c'.poolCapacity (lookup Setting.poolCapacity.key) ∧
      Follows IsSleep c.idleSleep c'.idleSleep (lookup Setting.idleSleep.key) ∧
      Follows IsFlag c.drainOnShutdown c'.drainOnShutdown (lookup Setting.drainOnShutdown.key) ∧
      c'.workerName = c.workerName ∧
      o.asked = Setting.all.map Setting.key ∧
      (c.validate = .ok () → c'.validate = .ok ())
  /-- It fails with the first value that is not acceptable, as it was given, and asks for nothing
  behind it. -/
  error : ∀ fault, o.result = .error fault →
    ∃ before s after value, Setting.all = before ++ s :: after ∧
      (∀ r ∈ before, ∀ v, lookup r.key = some v → r.Accepts v) ∧
      lookup s.key = some value ∧ ¬ s.Accepts value ∧
      fault = .invalidConfig s.key value ∧
      o.asked = (before ++ [s]).map Setting.key
  /-- A further override does what one does that asks the second lookup before the first. -/
  composes : ∀ c₁ later c₂, o.result = .ok c₁ → (c₁.overlay later).result = .ok c₂ →
    (c.overlay fun key => (later key).or (lookup key)).result = .ok c₂
  /-- The same override again changes nothing. -/
  again : ∀ c₁, o.result = .ok c₁ → (c₁.overlay lookup).result = .ok c₁

/-- Whatever is looked up, an override succeeds exactly on acceptable values, stops at the first
other one, and is one override with any that follows. -/
theorem isOverlaid_overlay (c : Config) (lookup : String → Option String) :
    c.IsOverlaid lookup (c.overlay lookup) := by
  constructor
  case ok_iff => exact exists_overlay_eq_ok_iff
  case ok =>
    intro c' hc'
    rcases overlay_eq_ok_iff.1 hc' with ⟨hcapacity, hsleep, hdrain, hname⟩
    exact ⟨hcapacity, hsleep, hdrain, hname, asked_of_overlay_eq_ok hc', validate_of_overlay hc'⟩
  case error =>
    intro fault hfault
    exact overlay_eq_error hfault
  case composes =>
    intro c₁ later c₂ hfirst hsecond
    exact overlay_overlay hfirst hsecond
  case again =>
    intro c₁ hfirst
    exact overlay_again hfirst

/-- The sleep is set before the flag is refused, but the flag is the first that is not acceptable,
and blanks stay in the fault. -/
example :
    ({} : Config).overlay (fun key =>
        if key = "SHERLOG_IDLE_SLEEP_US" then some " +7 "
        else if key = "SHERLOG_DRAIN_ON_SHUTDOWN" then some " maybe" else none) =
      ⟨["SHERLOG_POOL_CAPACITY", "SHERLOG_IDLE_SLEEP_US", "SHERLOG_DRAIN_ON_SHUTDOWN"],
        .error (.invalidConfig "SHERLOG_DRAIN_ON_SHUTDOWN" " maybe")⟩ := by
  rfl

end Overrides

end Config

end EventLog
