import Herald.Settings
import Herald.Proofs.Settings.PlainFile
import Mathlib.Tactic.SplitIfs

/-!
# The grammar of the settings

* `SpellsNumber`: the texts of numbers, which may have leading zeros and a plus sign;
* `readNumber_eq_ok_iff`: the number below a bound that a text spells is read, and nothing else;
* `Describes`, `FirstWrong`: the settings that the values of the variables describe, and where there
  are none, the variable to blame;
* `ofEnvironment_cases`: the one or the other is found;
* `settings_are_those_described`: the settings of an environment with a plain file beside it.
-/

namespace Herald

/-! ### Numbers -/

/-- One digit or more, and their value. -/
structure IsDigits (digits : List Char) (n : Nat) : Prop where
  ne_nil : digits ≠ []
  isDigit : ∀ c ∈ digits, c.isDigit
  value : Nat.ofDigitChars 10 digits 0 = n

/-- A text that spells a number: digits, behind a plus sign or not. -/
def SpellsNumber (s : String) (n : Nat) : Prop :=
  ∃ sign digits, s.toList = sign ++ digits ∧ (sign = [] ∨ sign = ['+']) ∧ IsDigits digits n

theorem spellsNumber_of_plus {s : String} {cs : List Char} (hs : s.toList = '+' :: cs) (n : Nat) :
    SpellsNumber s n ↔ IsDigits cs n := by
  constructor
  · rintro ⟨sign, digits, htext, rfl | rfl, hdigits⟩
    · rw [List.nil_append, hs] at htext
      have hplus := hdigits.isDigit '+' (htext ▸ List.mem_cons_self)
      exact absurd hplus (by decide)
    · rw [hs] at htext
      rwa [(List.cons.inj htext).2]
  · exact fun h => ⟨['+'], cs, hs, .inr rfl, h⟩

theorem spellsNumber_of_no_plus {s : String} (hs : s.toList.head? ≠ some '+') (n : Nat) :
    SpellsNumber s n ↔ IsDigits s.toList n := by
  constructor
  · rintro ⟨sign, digits, htext, rfl | rfl, hdigits⟩
    · rwa [htext]
    · rw [htext] at hs
      exact absurd rfl hs
  · exact fun h => ⟨[], s.toList, rfl, .inl rfl, h⟩

/-- A number only grows with its digits. -/
theorem le_ofDigitChars (cs : List Char) (n : Nat) : n ≤ Nat.ofDigitChars 10 cs n := by
  induction cs generalizing n with
  | nil => exact Nat.le_refl n
  | cons c cs ih =>
    rw [Nat.ofDigitChars_cons]
    exact Nat.le_trans (by omega) (ih _)

/-- The bound is met at some digit exactly if the whole number does not stay below it. -/
theorem readDigits_eq_ok_iff {bound n m : Nat} (hn : n < bound) (cs : List Char) :
    readDigits bound n cs = .ok m ↔
      (∀ c ∈ cs, c.isDigit) ∧ Nat.ofDigitChars 10 cs n = m ∧ m < bound := by
  induction cs generalizing n with
  | nil =>
    simp only [readDigits, Except.ok.injEq, List.not_mem_nil, false_implies, implies_true, true_and,
      Nat.ofDigitChars_nil]
    exact ⟨fun h => ⟨h, h ▸ hn⟩, And.left⟩
  | cons c cs ih =>
    rw [List.forall_mem_cons, Nat.ofDigitChars_cons, readDigits]
    by_cases hdigit : c.isDigit
    · by_cases hbound : 10 * n + (c.toNat - '0'.toNat) < bound
      · simp only [hdigit, hbound, if_true, true_and]
        exact ih hbound
      · have hgrow := le_ofDigitChars cs (10 * n + (c.toNat - '0'.toNat))
        -- Reading stops at the first digit that meets the bound, and no later one leads back below.
        simp only [hdigit, hbound, if_true, if_false, reduceCtorEq, true_and, false_iff]
        rintro ⟨-, rfl, hlt⟩
        exact hbound (Nat.lt_of_le_of_lt hgrow hlt)
    · simp [hdigit]

/-- A number is read exactly if it is spelled and lies below the bound. -/
theorem readNumber_eq_ok_iff {bound : Nat} (hbound : 0 < bound) (s : String) (n : Nat) :
    readNumber bound s = .ok n ↔ SpellsNumber s n ∧ n < bound := by
  have hread {cs : List Char} (hne : cs ≠ []) :
      readDigits bound 0 cs = .ok n ↔ IsDigits cs n ∧ n < bound := by
    rw [readDigits_eq_ok_iff hbound]
    exact ⟨fun ⟨hdigits, hvalue, hlt⟩ => ⟨⟨hne, hdigits, hvalue⟩, hlt⟩,
      fun ⟨h, hlt⟩ => ⟨h.isDigit, h.value, hlt⟩⟩
  rw [readNumber]
  split
  · rename_i hs
    rw [spellsNumber_of_no_plus (by simp [hs]), hs]
    exact iff_of_false nofun fun h => h.1.ne_nil rfl
  · rename_i hs
    rw [spellsNumber_of_plus hs]
    exact iff_of_false nofun fun h => h.1.ne_nil rfl
  · rename_i hne hs
    rw [spellsNumber_of_plus hs, hread (by rintro rfl; exact hne rfl)]
  · rename_i hnil _ hplus
    have hhead : s.toList.head? ≠ some '+' := by
      intro h
      obtain ⟨cs, hs⟩ := List.head?_eq_some_iff.1 h
      exact hplus cs hs
    rw [spellsNumber_of_no_plus hhead, hread hnil]

/-! ### What is described -/

/-- The port that a value of `PORT` stands for. -/
def PortIs (value : Option String) (port : Nat) : Prop :=
  value = none ∧ port = 1337 ∨ ∃ s, value = some s ∧ SpellsNumber s port ∧ port ≤ 65535

/-- The time limit that a value of `SLACK_WEBHOOK_TIMEOUT_SECS` stands for. -/
def TimeoutIs (value : Option String) (seconds : Option Nat) : Prop :=
  value = none ∧ seconds = none ∨
    ∃ s n, value = some s ∧ SpellsNumber s n ∧ n < Nat.pow 2 64 ∧ seconds = some n

/-- The settings that the values of the variables describe. -/
structure Describes (value : String → Option String) (s : Settings) : Prop where
  port : PortIs (value "PORT") s.port
  address : value "SLACK_INCOMING_WEBHOOK_URL" = some s.webhookAddress
  timeout : TimeoutIs (value "SLACK_WEBHOOK_TIMEOUT_SECS") s.timeoutSeconds

/-- The first variable whose value describes nothing. -/
inductive FirstWrong (value : String → Option String) : String → Prop
  | port (h : ¬ ∃ port, PortIs (value "PORT") port) : FirstWrong value "PORT"
  | address (hport : ∃ port, PortIs (value "PORT") port)
      (h : value "SLACK_INCOMING_WEBHOOK_URL" = none) :
      FirstWrong value "SLACK_INCOMING_WEBHOOK_URL"
  | timeout (hport : ∃ port, PortIs (value "PORT") port)
      (haddress : (value "SLACK_INCOMING_WEBHOOK_URL").isSome)
      (h : ¬ ∃ seconds, TimeoutIs (value "SLACK_WEBHOOK_TIMEOUT_SECS") seconds) :
      FirstWrong value "SLACK_WEBHOOK_TIMEOUT_SECS"

theorem Describes.not_firstWrong {value : String → Option String} {s : Settings}
    (h : Describes value s) (name : String) : ¬ FirstWrong value name := by
  rintro (hport | ⟨-, haddress⟩ | ⟨-, -, htimeout⟩)
  · exact hport ⟨_, h.port⟩
  · rw [h.address] at haddress
    cases haddress
  · exact htimeout ⟨_, h.timeout⟩

/-- The port is read as it is described. -/
theorem readPort_eq_ok_iff (value : Option String) (port : Nat) :
    readNumber (Nat.pow 2 16) (value.getD Settings.defaultPort) = .ok port ↔ PortIs value port := by
  cases value with
  | none =>
    have hdefault : readNumber (Nat.pow 2 16) Settings.defaultPort = .ok 1337 := by decide
    rw [Option.getD_none, hdefault]
    simp [PortIs, eq_comm]
  | some s =>
    rw [Option.getD_some, readNumber_eq_ok_iff (by decide)]
    simp [PortIs, Nat.lt_succ_iff]

/-- A time limit is read as it is described. -/
theorem readTimeout_eq_ok_iff (s : String) (seconds : Option Nat) :
    (∃ n, readNumber (Nat.pow 2 64) s = .ok n ∧ seconds = some n) ↔ TimeoutIs (some s) seconds := by
  have hbound : 0 < Nat.pow 2 64 := by decide
  simp [TimeoutIs, readNumber_eq_ok_iff hbound, and_assoc]

theorem PortIs.unique {value : Option String} {p q : Nat} (hp : PortIs value p)
    (hq : PortIs value q) : p = q := by
  rw [← readPort_eq_ok_iff] at hp hq
  exact Except.ok.inj (hp.symm.trans hq)

theorem TimeoutIs.unique {value : Option String} {t u : Option Nat} (ht : TimeoutIs value t)
    (hu : TimeoutIs value u) : t = u := by
  cases value with
  | none =>
    rcases ht with ⟨-, rfl⟩ | ⟨s, n, hnone, -⟩
    · rcases hu with ⟨-, rfl⟩ | ⟨s, n, hnone, -⟩
      · rfl
      · cases hnone
    · cases hnone
  | some s =>
    obtain ⟨n, hn, rfl⟩ := (readTimeout_eq_ok_iff s t).2 ht
    obtain ⟨m, hm, rfl⟩ := (readTimeout_eq_ok_iff s u).2 hu
    rw [Except.ok.inj (hn.symm.trans hm)]

theorem Describes.unique {value : String → Option String} {s t : Settings} (hs : Describes value s)
    (ht : Describes value t) : s = t := by
  obtain ⟨p, a, u⟩ := s
  obtain ⟨q, b, v⟩ := t
  have hport : p = q := hs.port.unique ht.port
  have haddress : a = b := Option.some.inj (hs.address.symm.trans ht.address)
  have htimeout : u = v := hs.timeout.unique ht.timeout
  rw [hport, haddress, htimeout]

/-- The variable whose value an error is about. -/
def SettingsError.variable : SettingsError → String
  | port _ => "PORT"
  | noAddress => "SLACK_INCOMING_WEBHOOK_URL"
  | timeout _ => "SLACK_WEBHOOK_TIMEOUT_SECS"

/-- The text of an error begins with the variable it is about. -/
theorem SettingsError.message_eq (e : SettingsError) :
    ∃ cause, e.message = e.variable ++ " must be " ++ cause := by
  cases e with
  | port e => exact ⟨"a valid number: " ++ e.message, by rw [← String.append_assoc]; rfl⟩
  | noAddress => exact ⟨"set: environment variable not found", rfl⟩
  | timeout e =>
    exact ⟨"a whole number of seconds: " ++ e.message, by rw [← String.append_assoc]; rfl⟩

namespace Settings

/-- Either settings are found that are described, or an error is about the first variable whose
value is wrong. -/
theorem ofEnvironment_cases (env : Settings.Environment) :
    (∃ s, ofEnvironment env = .ok s ∧ Describes env.get? s) ∨
      ∃ e, ofEnvironment env = .error e ∧ FirstWrong env.get? e.variable := by
  -- The cases are the steps of the reader, each with the first error it can meet.
  rw [ofEnvironment]
  cases hport : readNumber (Nat.pow 2 16) ((env.get? "PORT").getD defaultPort) with
  | error e =>
    refine .inr ⟨.port e, rfl, .port ?_⟩
    rintro ⟨p, hp⟩
    rw [← readPort_eq_ok_iff, hport] at hp
    cases hp
  | ok p =>
    have hp : PortIs (env.get? "PORT") p := (readPort_eq_ok_iff _ p).1 hport
    cases haddress : env.get? "SLACK_INCOMING_WEBHOOK_URL" with
    | none => exact .inr ⟨.noAddress, rfl, .address ⟨p, hp⟩ haddress⟩
    | some a =>
      cases htimeout : env.get? "SLACK_WEBHOOK_TIMEOUT_SECS" with
      | none => exact .inl ⟨⟨p, a, none⟩, rfl, hp, haddress, .inl ⟨htimeout, rfl⟩⟩
      | some s =>
        cases hread : readNumber (Nat.pow 2 64) s with
        | ok n =>
          have hn := (readTimeout_eq_ok_iff s (some n)).1 ⟨n, hread, rfl⟩
          exact .inl ⟨⟨p, a, some n⟩, by simp only [hread]; rfl, hp, haddress, htimeout ▸ hn⟩
        | error e =>
          refine .inr ⟨.timeout e, by simp only [hread]; rfl, .timeout ⟨p, hp⟩ ?_ ?_⟩
          · rw [haddress]; rfl
          · rintro ⟨seconds, h⟩
            rw [htimeout] at h
            obtain ⟨n, hn, -⟩ := (readTimeout_eq_ok_iff s seconds).2 h
            rw [hread] at hn
            cases hn

theorem ofEnvironment_eq_ok_iff (env : Settings.Environment) (s : Settings) :
    ofEnvironment env = .ok s ↔ Describes env.get? s := by
  rcases ofEnvironment_cases env with ⟨t, ht, hdescribes⟩ | ⟨e, he, hwrong⟩
  · rw [ht, Except.ok.injEq]
    exact ⟨fun h => h ▸ hdescribes, fun h => hdescribes.unique h⟩
  · rw [he]
    exact iff_of_false nofun fun h => h.not_firstWrong _ hwrong

/-- Whether there is a webhook depends on the address alone. -/
theorem exists_webhook_iff (s : Settings) :
    (∃ w, s.webhook = .ok w) ↔ ∃ c ∈ s.webhookAddress.toList, Text.isBlank c = false := by
  rw [webhook, Webhook.create?]
  split_ifs with h
  · simp_all
  · simp_all

/-- A file beside the environment that holds these assignments, or none. -/
def FileHolds : Option String → List (String × String) → Prop
  | none, assignments => assignments = []
  | some file, assignments => PlainFile assignments file

/-- The values of the variables after a file is read that may be there. -/
theorem get?_elim_load {file : Option String} {assignments : List (String × String)}
    (h : FileHolds file assignments) (env : Settings.Environment) :
    (file.elim env env.load).get? =
      fun name => (env.get? name).or (Environment.get? assignments name) := by
  funext name
  cases file with
  | none =>
    obtain rfl : assignments = [] := h
    exact (Option.or_none).symm
  | some file => exact Environment.get?_load h env name

/-- **The settings are those that the values of the variables describe.** Each variable has its
value in the environment, or else the first one in the file. Where these describe no settings, the
error begins with the first variable to blame. Whether there is a webhook for the settings depends
on the address alone. -/
theorem settings_are_those_described {file : Option String} {assignments : List (String × String)}
    (hfile : FileHolds file assignments) (env : Settings.Environment) :
    let value := fun name => (env.get? name).or (Environment.get? assignments name)
    let result := ofEnvironment (file.elim env env.load)
    ((∃ s, result = .ok s) ↔
      (∃ port, PortIs (value "PORT") port) ∧ (value "SLACK_INCOMING_WEBHOOK_URL").isSome ∧
        ∃ seconds, TimeoutIs (value "SLACK_WEBHOOK_TIMEOUT_SECS") seconds) ∧
    (∀ s, result = .ok s ↔ Describes value s) ∧
    (∀ e, result = .error e →
      ∃ name cause, FirstWrong value name ∧ e.message = name ++ " must be " ++ cause) ∧
    ∀ s, result = .ok s →
      ((∃ w, s.webhook = .ok w) ↔ ∃ c ∈ s.webhookAddress.toList, Text.isBlank c = false) := by
  intro value result
  have hvalue : (file.elim env env.load).get? = value := get?_elim_load hfile env
  have hok : ∀ s, result = .ok s ↔ Describes value s := by
    intro s
    rw [← hvalue]
    exact ofEnvironment_eq_ok_iff _ s
  refine ⟨⟨?_, ?_⟩, hok, ?_, fun s _ => s.exists_webhook_iff⟩
  · rintro ⟨s, hs⟩
    have h := (hok s).1 hs
    exact ⟨⟨_, h.port⟩, by rw [h.address]; rfl, _, h.timeout⟩
  · rintro ⟨⟨port, hport⟩, haddress, seconds, htimeout⟩
    obtain ⟨address, haddress⟩ := Option.isSome_iff_exists.1 haddress
    exact ⟨⟨port, address, seconds⟩, (hok _).2 ⟨hport, haddress, htimeout⟩⟩
  · intro e he
    obtain ⟨cause, hmessage⟩ := e.message_eq
    rcases ofEnvironment_cases (file.elim env env.load) with ⟨s, hs, -⟩ | ⟨e', he', hwrong⟩
    · cases he.symm.trans hs
    · obtain rfl : e = e' := Except.error.inj (he.symm.trans he')
      exact ⟨e.variable, cause, hvalue ▸ hwrong, hmessage⟩

/-- The port is the one of the environment, the address is the first of the file, and zeros and a
plus sign in front of a number change nothing. -/
theorem settings_of_environment_before_file :
    let file := "PORT=9\r\nSLACK_INCOMING_WEBHOOK_URL=a\nSLACK_INCOMING_WEBHOOK_URL=b\n" ++
      "SLACK_WEBHOOK_TIMEOUT_SECS=007"
    FileHolds (some file)
      [("PORT", "9"), ("SLACK_INCOMING_WEBHOOK_URL", "a"), ("SLACK_INCOMING_WEBHOOK_URL", "b"),
        ("SLACK_WEBHOOK_TIMEOUT_SECS", "007")] ∧
    ofEnvironment (Environment.load [("PORT", "+0080")] file) = .ok ⟨80, "a", some 7⟩ := by
  intro file
  have htext : file = "PORT" ++ "=" ++ "9" ++ "\r\n" ++
      ("SLACK_INCOMING_WEBHOOK_URL" ++ "=" ++ "a" ++ "\n" ++
        ("SLACK_INCOMING_WEBHOOK_URL" ++ "=" ++ "b" ++ "\n" ++
          ("SLACK_WEBHOOK_TIMEOUT_SECS" ++ "=" ++ "007"))) := by
    simp [file]
  have hfile : FileHolds (some file)
      [("PORT", "9"), ("SLACK_INCOMING_WEBHOOK_URL", "a"), ("SLACK_INCOMING_WEBHOOK_URL", "b"),
        ("SLACK_WEBHOOK_TIMEOUT_SECS", "007")] := by
    rw [htext]
    have haddress : IsKey "SLACK_INCOMING_WEBHOOK_URL" := by simp [IsKey]
    exact .line (by simp [IsKey]) (by simp [IsSolid, Text.isBlank]) (.inr rfl) <|
      .line haddress (by simp [IsSolid, Text.isBlank]) (.inl rfl) <|
      .line haddress (by simp [IsSolid, Text.isBlank]) (.inl rfl) <|
      .last (by simp [IsKey]) (by simp [IsSolid, Text.isBlank])
  have hport : PortIs (some "+0080") 80 :=
    .inr ⟨_, rfl, ⟨['+'], ['0', '0', '8', '0'], rfl, .inr rfl, by simp, by simp, rfl⟩,
      by decide⟩
  have htimeout : TimeoutIs (some "007") (some 7) :=
    .inr ⟨_, _, rfl, ⟨[], ['0', '0', '7'], rfl, .inl rfl, by simp, by simp, rfl⟩,
      by decide, rfl⟩
  have hread := (settings_are_those_described hfile [("PORT", "+0080")]).2.1
  exact ⟨hfile, (hread ⟨80, "a", some 7⟩).2 ⟨hport, rfl, htimeout⟩⟩

end Settings

end Herald
