import LookupEngine.Lookup.Password
import LookupEngine.Proofs.Machine.Action
import LookupEngine.Proofs.Machine.Additions
/-!
# What a password term comes to

A term that names no storage only uses up random numbers.  One that does reads what is there,
and makes and stores a password only if nothing is.  All ways through this are listed once, with
the result and the world of each, and everything else about the lookup follows from the list.
-/

namespace LookupEngine.Lookup.Password

/-- The path at which the password of a term is stored, if the term says one. -/
def storagePath? (context : Context) (options : Options) (environment : Environment)
    (term : String) : Option String :=
  match Spec.parse context.settings.password options term with
  | .ok spec => spec.storage?.map (context.resolve environment)
  | .error _ => none

theorem storagePath?_eq_some {context : Context} {options : Options}
    {environment : Environment} {term path : String}
    (h : storagePath? context options environment term = some path) :
    ∃ spec written, Spec.parse context.settings.password options term = .ok spec ∧
      spec.storage? = some written ∧ context.resolve environment written = path := by
  unfold storagePath? at h
  split at h
  · next spec hparse =>
    obtain ⟨written, hwritten, hpath⟩ := Option.map_eq_some_iff.1 h
    exact ⟨spec, written, hparse, hwritten, hpath⟩
  · cases h

theorem storagePath?_of_parse {context : Context} {options : Options}
    {environment : Environment} {term written : String} {spec : Spec}
    (hparse : Spec.parse context.settings.password options term = .ok spec)
    (hwritten : spec.storage? = some written) :
    storagePath? context options environment term =
      some (context.resolve environment written) := by
  rw [storagePath?, hparse]
  simp only [hwritten, Option.map_some]

theorem stored?_of_readText {disk : Disk} {here : Location} {path text : String}
    (h : disk.readText here path = .ok text) :
    stored? disk here path = .ok (some (Text.trim text)) := by
  rw [stored?, h]

theorem readText_of_stored? {disk : Disk} {here : Location} {path password : String}
    (h : stored? disk here path = .ok (some password)) :
    ∃ text, disk.readText here path = .ok text ∧ Text.trim text = password := by
  rw [stored?] at h
  split at h
  · next text hread => exact ⟨text, hread, by simpa using h⟩
  · split at h <;> cases h

/-- Only what leads to nothing counts as not stored. -/
theorem not_pathExists_of_stored? {disk : Disk} {here : Location} {path : String}
    (h : stored? disk here path = .ok none) : disk.pathExists here path = false := by
  rw [stored?] at h
  split at h
  · cases h
  next fault hread =>
  split at h
  · next hnothing =>
    rcases hnothing with hmissing | hnothing
    · subst hmissing
      exact Disk.not_pathExists_of_readText hread
    · exact hnothing
  · cases h

/-- The disk with the directories that a path is in, as far as they can be made. -/
def prepared (world : World) (path : String) : Disk :=
  (world.disk.makeDirectories world.here directoryMode (directoryOf path)).2

/-- What storing a password can come to: a failure, the password that has come to stand at the
path, or the new file. -/
inductive Stores (world : World) (path password : String) :
    Except Failure String × World → Prop
  | failed (failure : Failure) :
      Stores world path password (.error failure, { world with disk := prepared world path })
  | taken (text : String) (hread : (prepared world path).readText world.here path = .ok text) :
      Stores world path password
        (.ok (Text.trim text), { world with disk := prepared world path })
  | published (disk : Disk)
      (hpublish : (prepared world path).publish world.here path (Utf8.encode (password ++ "\n"))
        fileMode = .ok disk) :
      Stores world path password (.ok password, { world with disk })

theorem perform_store (world : World) (path password : String) :
    Stores world path password ((store path password).perform world) := by
  rw [store, Action.perform_bind, Action.perform_get]
  dsimp only
  rcases hmade : world.disk.makeDirectories world.here directoryMode (directoryOf path) with
    ⟨fault | done, disk⟩
  · have hdisk : prepared world path = disk := by rw [prepared, hmade]
    rw [← hdisk]
    exact .failed _
  have hdisk : prepared world path = disk := by rw [prepared, hmade]
  rw [← hdisk]
  dsimp only
  cases hpublish : (prepared world path).publish world.here path
      (Utf8.encode (password ++ "\n")) fileMode with
  | ok after => exact .published after hpublish
  | error fault =>
    dsimp only
    rw [Action.perform_bind, Action.perform_set]
    dsimp only
    by_cases htaken : fault = .alreadyExists
    · rw [if_pos htaken]
      cases hstored : stored? (prepared world path) world.here path with
      | error failure => exact .failed failure
      | ok found =>
        cases found with
        | none => exact .failed _
        | some existing =>
          obtain ⟨text, hread, rfl⟩ := readText_of_stored? hstored
          exact .taken text hread
    · rw [if_neg htaken]
      exact .failed _

/-- The world after `spec` has taken its random numbers. -/
def drawnFor (world : World) (spec : Spec) : World :=
  { world with drawn := world.drawn + spec.length }

/-- What a term that has been read can come to. -/
inductive Gives (context : Context) (spec : Spec) (world : World) :
    Except Failure String × World → Prop
  | unstored (result : Except Failure String) (hstorage : spec.storage? = none) :
      Gives context spec world (result, drawnFor world spec)
  | existing (written text : String) (hstorage : spec.storage? = some written)
      (hread : world.disk.readText world.here (context.resolve world.environment written) =
        .ok text) :
      Gives context spec world (.ok (Text.trim text), world)
  | unreadable (failure : Failure) : Gives context spec world (.error failure, world)
  | noAlphabet (failure : Failure) :
      Gives context spec world (.error failure, drawnFor world spec)
  | stored (written password : String) (outcome : Except Failure String × World)
      (hstorage : spec.storage? = some written)
      (hfree : world.disk.pathExists world.here (context.resolve world.environment written) =
        false)
      (hpassword : generate? world.draws world.drawn spec.length spec.charset = some password)
      (hstores : Stores (drawnFor world spec) (context.resolve world.environment written)
        password outcome) :
      Gives context spec world outcome

theorem perform_make (spec : Spec) (world : World) :
    (make spec).perform world =
      (match generate? world.draws world.drawn spec.length spec.charset with
        | some password => .ok password
        | none => .error (.invalidTerm (spec.path.getD "") .emptyAlphabet),
        drawnFor world spec) := by
  rw [make, Action.perform_bind, Action.perform_get]
  dsimp only
  rw [Action.perform_bind, Action.perform_set]
  dsimp only
  cases generate? world.draws world.drawn spec.length spec.charset <;> rfl

theorem perform_ofSpec (context : Context) (spec : Spec) (world : World) :
    Gives context spec world ((ofSpec context spec).perform world) := by
  rw [ofSpec]
  cases hstorage : spec.storage? with
  | none =>
    dsimp only
    rw [perform_make]
    exact .unstored _ hstorage
  | some written =>
    dsimp only
    rw [Action.perform_bind, Action.perform_get]
    dsimp only
    rw [Action.perform_bind, Action.perform_ofExcept]
    cases hstored : stored? world.disk world.here (context.resolve world.environment written) with
    | error failure => exact .unreadable failure
    | ok found =>
      cases found with
      | some existing =>
        obtain ⟨text, hread, rfl⟩ := readText_of_stored? hstored
        exact .existing written text hstorage hread
      | none =>
        dsimp only
        rw [Action.perform_bind, perform_make]
        cases hpassword : generate? world.draws world.drawn spec.length spec.charset with
        | none => exact .noAlphabet _
        | some password =>
          exact .stored written password _ hstorage (not_pathExists_of_stored? hstored) hpassword
            (perform_store _ _ _)

/-- One term: it is read, and gives one text. -/
theorem perform_one (context : Context) (options : Options) (term : String) (world : World) :
    (one context options term).perform world =
      match Spec.parse context.settings.password options term with
      | .error failure => (.error failure, world)
      | .ok spec =>
        match (ofSpec context spec).perform world with
        | (.error failure, after) => (.error failure, after)
        | (.ok password, after) => (.ok [.string password], after) := by
  rw [one, Action.perform_bind, Action.perform_ofExcept]
  cases Spec.parse context.settings.password options term with
  | error failure => rfl
  | ok spec =>
    dsimp only
    rw [Action.perform_bind]
    rcases (ofSpec context spec).perform world with ⟨failure | password, after⟩ <;> rfl

theorem snd_perform_one {context : Context} {options : Options} {term : String} {spec : Spec}
    (hparse : Spec.parse context.settings.password options term = .ok spec) (world : World) :
    ((one context options term).perform world).2 = ((ofSpec context spec).perform world).2 := by
  rw [perform_one, hparse]
  rcases houtcome : (ofSpec context spec).perform world with ⟨failure | password, after⟩ <;>
    simp only [houtcome]

theorem snd_perform_one_of_error {context : Context} {options : Options} {term : String}
    {failure : Failure}
    (hparse : Spec.parse context.settings.password options term = .error failure)
    (world : World) : ((one context options term).perform world).2 = world := by
  rw [perform_one, hparse]

section

variable (context : Context) (options : Options)

theorem perform_run_cons (term : String) (rest : List String) (world : World) :
    (run context options (term :: rest)).perform world =
      if world.isCancelled then (.error .cancelled, world)
      else Action.joined ((one context options term).perform world)
        (run context options rest).perform :=
  Action.perform_collect_cons World.isCancelled (one context options) term rest world

theorem perform_run_singleton (term : String) (world : World) :
    (run context options [term]).perform world =
      if world.isCancelled then (.error .cancelled, world)
      else (one context options term).perform world :=
  Action.perform_collect_singleton World.isCancelled (one context options) term world

theorem perform_run_append (front back : List String) (world : World) :
    (run context options (front ++ back)).perform world =
      Action.joined ((run context options front).perform world)
        (run context options back).perform :=
  Action.perform_collect_append World.isCancelled (one context options) front back world

end

end LookupEngine.Lookup.Password
