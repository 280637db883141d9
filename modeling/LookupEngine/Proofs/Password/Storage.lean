import LookupEngine.Proofs.Password.Outcomes
/-!
# What a password lookup leaves behind

However a lookup of passwords ends, it has only added to the disk: the new files are those of
its own terms, each with one generated password and a line feed, and the new directories are on
the way to them.  A term whose path leads to something adds nothing, even in the middle of a
lookup that has stored other passwords before it.
-/

namespace LookupEngine.Lookup.Password

section

variable (context : Context) (options : Options)

/-- What a lookup of some terms may put on the disk, by the path that it is found by: passwords
made of random numbers that are still unused, and directories above them. -/
inductive Makes (terms : List String) (world : World) : String → Entry → Prop
  | password (term path : String) (spec : Spec) (first : Nat) (password : String)
      (hterm : term ∈ terms)
      (hspec : Spec.parse context.settings.password options term = .ok spec)
      (hpath : storagePath? context options world.environment term = some path)
      (hfree : world.disk.pathExists world.here path = false)
      (hfirst : world.drawn ≤ first)
      (hpassword : generate? world.draws first spec.length spec.charset = some password) :
      Makes terms world path (.file (Utf8.encode (password ++ "\n")) fileMode)
  | directory (term path dir : String) (hterm : term ∈ terms)
      (hpath : storagePath? context options world.environment term = some path)
      (hfree : world.disk.pathExists world.here path = false)
      (habove : Path.IsAbove dir path) :
      Makes terms world dir (.directory directoryMode)

/-- The world after a lookup of some terms: apart from random numbers that are used up, only
the disk is another one, and it has only been added to. -/
structure Leaves (terms : List String) (before after : World) : Prop where
  others : after = { before with disk := after.disk, drawn := after.drawn }
  drawn : before.drawn ≤ after.drawn
  disk : Disk.Extends before.here (Makes context options terms before) before.disk after.disk

/-- A term that asks for no storage, or for a path that leads to something. -/
def Idle (world : World) (term : String) : Prop :=
  ∀ path, storagePath? context options world.environment term = some path →
    world.disk.pathExists world.here path = true

end

section

variable {context : Context} {options : Options} {terms : List String}
  {before between after world : World}

theorem Leaves.refl (world : World) : Leaves context options terms world world where
  others := rfl
  drawn := Nat.le_refl world.drawn
  disk := Disk.Extends.refl world.disk

theorem Leaves.here (h : Leaves context options terms before after) :
    after.here = before.here := by
  rw [h.others]

theorem Leaves.environment (h : Leaves context options terms before after) :
    after.environment = before.environment := by
  rw [h.others]

theorem Leaves.draws (h : Leaves context options terms before after) :
    after.draws = before.draws := by
  rw [h.others]

/-- What leads to nothing later has led to nothing before. -/
theorem Leaves.not_pathExists (h : Leaves context options terms before after) {path : String}
    (hfree : after.disk.pathExists after.here path = false) :
    before.disk.pathExists before.here path = false := by
  by_contra hexists
  rw [Bool.not_eq_false] at hexists
  rw [h.here, h.disk.toGrows.pathExists hexists] at hfree
  cases hfree

theorem Makes.earlier (h : Leaves context options terms before between) {path : String}
    {entry : Entry} (hmakes : Makes context options terms between path entry) :
    Makes context options terms before path entry := by
  cases hmakes with
  | password term path spec first password hterm hspec hpath hfree hfirst hpassword =>
    rw [h.environment] at hpath
    rw [h.draws] at hpassword
    exact .password term path spec first password hterm hspec hpath (h.not_pathExists hfree)
      (Nat.le_trans h.drawn hfirst) hpassword
  | directory term path _ hterm hpath hfree habove =>
    rw [h.environment] at hpath
    exact .directory term path _ hterm hpath (h.not_pathExists hfree) habove

theorem Leaves.trans (hfirst : Leaves context options terms before between)
    (hsecond : Leaves context options terms between after) :
    Leaves context options terms before after where
  others :=
    calc after
      _ = { between with disk := after.disk, drawn := after.drawn } := hsecond.others
      _ = { before with disk := after.disk, drawn := after.drawn } := by rw [hfirst.others]
  drawn := Nat.le_trans hfirst.drawn hsecond.drawn
  disk := by
    have hlater := hsecond.disk.mono fun path entry hmakes => Makes.earlier hfirst hmakes
    rw [hfirst.here] at hlater
    exact hfirst.disk.trans hlater

/-- The directories that a path is in are made on the way to it. -/
theorem extends_prepared {named : String → Entry → Prop} (world : World) {path : String}
    (habove : ∀ dir, Path.IsAbove dir path → named dir (.directory directoryMode)) :
    Disk.Extends world.here named world.disk (prepared world path) := by
  have hdot : Disk.Extends world.here named world.disk
      (world.disk.makeDirectories world.here directoryMode ".").2 := by
    rw [Disk.makeDirectories_dot]
    exact Disk.Extends.refl world.disk
  rw [prepared, directoryOf]
  cases hparent : Path.parent? path with
  | none => exact hdot
  | some dir =>
    dsimp only
    by_cases hempty : dir = ""
    · rw [hempty]
      exact hdot
    · have hdir := Path.isAbove_of_parent? hparent hempty
      rw [if_neg (by simpa using hempty)]
      exact Disk.extends_makeDirectoriesWithin (habove _ hdir.bare)
        fun upper hupper => habove upper (hupper.trans hdir)

theorem leaves_drawnFor (world : World) (spec : Spec) :
    Leaves context options terms world (drawnFor world spec) where
  others := rfl
  drawn := Nat.le_add_right world.drawn spec.length
  disk := Disk.Extends.refl world.disk

theorem leaves_of_stores {term path : String} {spec : Spec} {first : Nat} {password : String}
    {outcome : Except Failure String × World} (hterm : term ∈ terms)
    (hspec : Spec.parse context.settings.password options term = .ok spec)
    (hpath : storagePath? context options world.environment term = some path)
    (hfree : world.disk.pathExists world.here path = false) (hfirst : world.drawn ≤ first)
    (hpassword : generate? world.draws first spec.length spec.charset = some password)
    (h : Stores (drawnFor world spec) path password outcome) :
    Leaves context options terms world outcome.2 := by
  have hdrawn := Nat.le_add_right world.drawn spec.length
  -- The directories stay even where the password itself is not stored.
  have hprepared : Disk.Extends world.here (Makes context options terms world) world.disk
      (prepared world path) :=
    extends_prepared world fun dir habove => .directory term path dir hterm hpath hfree habove
  cases h with
  | failed failure => exact ⟨rfl, hdrawn, hprepared⟩
  | taken text hread => exact ⟨rfl, hdrawn, hprepared⟩
  | published disk hpublish =>
    obtain ⟨location, hlocate, hnew, rfl⟩ := Disk.publish_eq_ok hpublish
    refine ⟨rfl, hdrawn, hprepared.trans (Disk.Extends.set hlocate hnew ?_ ?_)⟩
    · intro target hlink
      cases hlink
    · exact .password term path spec first password hterm hspec hpath hfree hfirst hpassword

theorem leaves_of_gives {term : String} {spec : Spec} {outcome : Except Failure String × World}
    (hterm : term ∈ terms)
    (hspec : Spec.parse context.settings.password options term = .ok spec)
    (h : Gives context spec world outcome) : Leaves context options terms world outcome.2 := by
  cases h with
  | unstored result hstorage => exact leaves_drawnFor world spec
  | existing written text hstorage hread => exact Leaves.refl world
  | unreadable failure => exact Leaves.refl world
  | noAlphabet failure => exact leaves_drawnFor world spec
  | stored written password outcome hstorage hfree hpassword hstores =>
    have hpath : storagePath? context options world.environment term =
        some (context.resolve world.environment written) :=
      storagePath?_of_parse hspec hstorage
    exact leaves_of_stores hterm hspec hpath hfree (Nat.le_refl world.drawn) hpassword hstores

/-- One term only adds what it may add. -/
theorem leaves_one {term : String} (hterm : term ∈ terms) (world : World) :
    Leaves context options terms world ((one context options term).perform world).2 := by
  cases hspec : Spec.parse context.settings.password options term with
  | error failure =>
    rw [snd_perform_one_of_error hspec]
    exact Leaves.refl world
  | ok spec =>
    rw [snd_perform_one hspec]
    exact leaves_of_gives hterm hspec (perform_ofSpec context spec world)

theorem leaves_run (context : Context) (options : Options) (terms : List String)
    (world : World) :
    Leaves context options terms world ((run context options terms).perform world).2 :=
  Action.collect_preserves _ _ Leaves.refl (fun _ _ _ hfirst hsecond => hfirst.trans hsecond)
    (fun _ hterm state => leaves_one hterm state) world

/-- A term that is idle before a lookup is idle at its turn. -/
theorem Idle.later (h : Leaves context options terms before after) {term : String}
    (hidle : Idle context options before term) : Idle context options after term := by
  intro path hpath
  rw [h.environment] at hpath
  rw [h.here]
  exact h.disk.toGrows.pathExists (hidle path hpath)

theorem disk_of_gives {spec : Spec} {outcome : Except Failure String × World}
    (hexists : ∀ written, spec.storage? = some written →
      world.disk.pathExists world.here (context.resolve world.environment written) = true)
    (h : Gives context spec world outcome) : outcome.2.disk = world.disk := by
  cases h with
  | unstored result hstorage => rfl
  | existing written text hstorage hread => rfl
  | unreadable failure => rfl
  | noAlphabet failure => rfl
  | stored written password outcome hstorage hfree hpassword hstores =>
    rw [hexists written hstorage] at hfree
    cases hfree

/-- An idle term reads, fails or uses up random numbers. -/
theorem disk_one_of_idle {term : String} (hidle : Idle context options world term) :
    ((one context options term).perform world).2.disk = world.disk := by
  cases hspec : Spec.parse context.settings.password options term with
  | error failure => rw [snd_perform_one_of_error hspec]
  | ok spec =>
    rw [snd_perform_one hspec]
    exact disk_of_gives (fun written hwritten => hidle _ (storagePath?_of_parse hspec hwritten))
      (perform_ofSpec context spec world)

/-- A term of the null device is idle, as it asks for no storage. -/
example : storagePath? ⟨.default, none⟩ [] ⟨[], none⟩ "/dev/null length=8" = none := by
  decide +kernel

/-- The turn of an idle term leaves the disk as the terms before it have left it. -/
theorem disk_run_of_idle {term : String} (earlier : List String)
    (hidle : Idle context options world term) :
    ((run context options (earlier ++ [term])).perform world).2.disk =
      ((run context options earlier).perform world).2.disk := by
  have hleaves := leaves_run context options earlier world
  rw [perform_run_append]
  rcases hearlier : (run context options earlier).perform world with ⟨failure | values, between⟩
  · rfl
  rw [hearlier] at hleaves
  rw [Action.snd_joined_ok, perform_run_singleton]
  split
  · rfl
  · exact disk_one_of_idle (hidle.later hleaves)

/-- Whether a lookup of passwords succeeds or fails, it keeps every file, it adds nothing but
the passwords of its terms and the directories above them, and the terms that ask for no storage
or lead to something add nothing. -/
theorem run_only_adds_passwords (context : Context) (options : Options) (terms : List String)
    (world : World) :
    (∀ path content, world.disk.readBytes world.here path = .ok content →
        ((run context options terms).perform world).2.disk.readBytes world.here path =
          .ok content) ∧
      Leaves context options terms world ((run context options terms).perform world).2 ∧
      ∀ earlier term later, terms = earlier ++ term :: later →
        Idle context options world term →
          ((run context options (earlier ++ [term])).perform world).2.disk =
            ((run context options earlier).perform world).2.disk := by
  have hleaves := leaves_run context options terms world
  refine ⟨?_, hleaves, ?_⟩
  · intro path content hread
    exact hleaves.disk.toGrows.readBytes hread
  · intro earlier term later hterms hidle
    exact disk_run_of_idle earlier hidle

end

end LookupEngine.Lookup.Password
