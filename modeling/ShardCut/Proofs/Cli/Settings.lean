import ShardCut.Cli.Run
import ShardCut.Mesh.Bytes

/-!
Where the settings of a run come from. Each setting is the one of the command line, else the one of
the settings file, else the default; a run uses these effective settings and no others. Whether it
gets that far is decided twice: what the file states has to be valid over the defaults, and the
effective settings have to be valid. So a file that is valid only together with the command line is
refused, although nothing of what makes it invalid would be used.

Main definitions: `Settings.effective`, `statedIn`. Main results: `settingsOf_eq`,
`settingsOf_eq_ok_iff`, `settingsOf_refused_despite_flags`.
-/

namespace ShardCut

namespace Settings

variable {settings : Settings}

/-- The settings, each taken from the command line, else from the file, else from the defaults. -/
def effective (flags file : StatedSettings) : Settings where
  shards := (flags.shards?.or file.shards?).getD default.shards
  coordinator := (flags.coordinator?.or file.coordinator?).getD default.coordinator

/-- To lay the command line over the file over the defaults is to take each setting from the first
    of them that states it. -/
theorem overlay_overlay (flags file : StatedSettings) :
    (default.overlay file).overlay flags = effective flags file := by
  obtain ⟨shards?, coordinator?⟩ := flags
  cases shards? <;> cases coordinator? <;> rfl

theorem validate_of_valid (h : settings.Valid) : settings.validate = .ok settings := by
  rw [validate, if_neg h.1, if_neg (Nat.not_le_of_lt h.2)]

/-- Settings that are not valid are refused for one of their values. -/
theorem validate_of_not_valid (h : ¬settings.Valid) :
    ∃ fault, settings.validate = .error (.invalidSetting fault) := by
  unfold validate
  split
  · exact ⟨_, rfl⟩
  · next positive =>
    split
    · exact ⟨_, rfl⟩
    · next inside => exact absurd ⟨positive, Nat.lt_of_not_le inside⟩ h

end Settings

namespace Cli

variable {M : Type} {options : Options} {file? : Option String} {stated : StatedSettings}

/-- What the settings file of a run states; without a file nothing is stated. -/
def statedIn (file? : Option String) : Except Failure StatedSettings :=
  match file? with
  | some text => Settings.readStated text
  | none => .ok ⟨none, none⟩

theorem toOption_eq_some_iff {ε α : Type} {result : Except ε α} {value : α} :
    result.toOption = some value ↔ result = .ok value := by
  cases result <;> simp [Except.toOption]

/-- What the command line states. -/
def Options.flags (options : Options) : StatedSettings := ⟨options.shards?, options.coordinator?⟩

/-- What a file states is validated over the defaults, whatever the command line states. Without a
    file this says nothing, since the defaults are valid. -/
theorem settingsOf_eq (decoded : statedIn file? = .ok stated) :
    settingsOf options file? =
      (Settings.default.overlay stated).validate.bind fun settings =>
        (settings.overlay options.flags).validate := by
  cases file? with
  | none =>
    obtain rfl := Except.ok.inj decoded
    rfl
  | some text =>
    have read : Settings.readStated text = .ok stated := decoded
    rw [settingsOf, Settings.ofFile, read]
    rfl

/-- With a file that is valid over the defaults, or without one, the effective settings decide. -/
theorem settingsOf_of_valid (decoded : statedIn file? = .ok stated)
    (alone : (Settings.default.overlay stated).Valid) :
    settingsOf options file? = (Settings.effective options.flags stated).validate := by
  rw [settingsOf_eq decoded, Settings.validate_of_valid alone, ← Settings.overlay_overlay]
  rfl

/-- A file that is not valid over the defaults is refused. -/
theorem settingsOf_of_not_valid (decoded : statedIn file? = .ok stated)
    (alone : ¬(Settings.default.overlay stated).Valid) :
    ∃ fault, settingsOf options file? = .error (.invalidSetting fault) := by
  obtain ⟨fault, refused⟩ := Settings.validate_of_not_valid alone
  refine ⟨fault, ?_⟩
  rw [settingsOf_eq decoded, refused]
  rfl

/-- A settings file that is text is read as this text. -/
theorem readSettings_of_text {m : Type → Type} [Monad m] [LawfulMonad m] {files : Files m}
    {path text : String} {bytes : List UInt8} (named : options.settings? = some path)
    (stored : files path = pure (some bytes))
    (decodes : String.fromUTF8? ⟨bytes.toArray⟩ = some text) :
    readSettings files options = pure (.ok (some text)) := by
  simp only [readSettings, named, stored, pure_bind, decodes]

/-- If the file is valid by itself, and the effective settings are, a run uses these. -/
theorem settingsOf_eq_ok (decoded : statedIn file? = .ok stated)
    (alone : (Settings.default.overlay stated).Valid)
    (valid : (Settings.effective options.flags stated).Valid) :
    settingsOf options file? = .ok (Settings.effective options.flags stated) := by
  rw [settingsOf_of_valid decoded alone, Settings.validate_of_valid valid]

/-- Otherwise there are no settings, and what is wrong is one of the values. -/
theorem settingsOf_eq_error (decoded : statedIn file? = .ok stated)
    (invalid : ¬((Settings.default.overlay stated).Valid ∧
      (Settings.effective options.flags stated).Valid)) :
    ∃ fault, settingsOf options file? = .error (.invalidSetting fault) := by
  by_cases alone : (Settings.default.overlay stated).Valid
  · have refused := Settings.validate_of_not_valid fun valid => invalid ⟨alone, valid⟩
    rwa [settingsOf_of_valid decoded alone]
  · exact settingsOf_of_not_valid decoded alone

/-- A run comes to its settings when those of the file are valid over the defaults and the effective
    ones are valid. Without a settings file, or with one that states nothing, only the effective
    ones count. The rest of the run uses just these, and a run without valid settings ends with
    exit code 1. -/
theorem settingsOf_eq_ok_iff {m : Type → Type} [Monad m] [LawfulMonad m]
    (codec : Codec M IdPairs) (files : Files m)
    (reads : readSettings files options = pure (.ok file?))
    (decoded : statedIn file? = .ok stated) :
    (∀ settings, settingsOf options file? = .ok settings ↔
      (Settings.default.overlay stated).Valid ∧
        (Settings.effective options.flags stated).Valid ∧
        settings = Settings.effective options.flags stated) ∧
      (stated = ⟨none, none⟩ → (Settings.default.overlay stated).Valid) ∧
      runOptions codec files options =
        if (Settings.default.overlay stated).Valid ∧
            (Settings.effective options.flags stated).Valid then do
          let bytes ← readGraph files options
          return outcomeOf
            (bytes >>= answer codec options (Settings.effective options.flags stated))
        else return ⟨1, ""⟩ := by
  have decided : ((.ok file? : Except Failure _) >>= settingsOf options) =
      settingsOf options file? := rfl
  have unstated : stated = ⟨none, none⟩ → (Settings.default.overlay stated).Valid := by
    rintro rfl
    decide
  by_cases both : (Settings.default.overlay stated).Valid ∧
      (Settings.effective options.flags stated).Valid
  · have found := settingsOf_eq_ok decoded both.1 both.2
    refine ⟨fun settings => ?_, unstated, ?_⟩
    · rw [found, Except.ok.injEq, eq_comm]
      exact ⟨fun same => ⟨both.1, both.2, same⟩, fun all => all.2.2⟩
    · rw [if_pos both]
      simp only [runOptions, reads, pure_bind, decided, found]
  · obtain ⟨fault, refused⟩ := settingsOf_eq_error decoded both
    refine ⟨fun settings => ?_, unstated, ?_⟩
    · rw [refused]
      constructor
      · intro found
        cases found
      · rintro ⟨file, effective, -⟩
        exact absurd ⟨file, effective⟩ both
    · rw [if_neg both]
      simp only [runOptions, reads, pure_bind, decided, refused]
      rfl

/-- Two shards from the file and the second of them as the coordinator from the command line, over a
    store whose every file is this settings file. -/
theorem settingsOf_eq_ok_iff_mixed :
    let options : Options := ⟨"g", "[1]", none, none, some 1, some "c.yaml"⟩
    let text := "fragment_num: 2"
    let files : Files Id := fun _ => some text.toUTF8.toList
    readSettings files options = pure (.ok (some text)) ∧
      statedIn (some text) = .ok ⟨some 2, none⟩ ∧
      settingsOf options (some text) = .ok ⟨2, 1⟩ := by
  intro options text files
  have decodes : String.fromUTF8? ⟨text.toUTF8.toList.toArray⟩ = some text := by decide +kernel
  have reads : readSettings files options = pure (.ok (some text)) :=
    readSettings_of_text rfl rfl decodes
  have decoded : statedIn (some text) = .ok ⟨some 2, none⟩ := by
    rw [← toOption_eq_some_iff]
    decide +kernel
  refine ⟨reads, decoded, ?_⟩
  exact ((settingsOf_eq_ok_iff .edges files reads decoded).1 ⟨2, 1⟩).2 (by decide)

/-- The effective settings may be valid and the run be refused all the same: a coordinator that the
    file states without a number of shards is held against the four shards of the defaults, although
    the command line states eight. -/
theorem settingsOf_refused_despite_flags :
    let options : Options := ⟨"example", "[1]", none, some 8, none, some "c.yaml"⟩
    let stated : StatedSettings := ⟨none, some 5⟩
    statedIn (some "coordinator: 5") = .ok stated ∧
      (Settings.effective options.flags stated).Valid ∧
      settingsOf options (some "coordinator: 5") =
        .error (.invalidSetting (.coordinatorOutOfRange 5 4)) := by
  intro options stated
  have decoded : statedIn (some "coordinator: 5") = .ok stated := by
    rw [← toOption_eq_some_iff]
    decide +kernel
  refine ⟨decoded, by decide, ?_⟩
  rw [settingsOf_eq decoded]
  rfl

end Cli

end ShardCut
