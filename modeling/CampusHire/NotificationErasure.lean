import CampusHire.CommunicationsService
import CampusHire.Ownership

/-!
# Notifications without those of a student

What the tables of notifications and delivery logs hold when a student's notifications are
taken out with their logs.  Events about the student and their `mark_read` leave it as it
is; events about others and the others' `mark_read` do to it what they do to the tables.
-/

namespace CampusHire.NotificationErasure

open CampusHire CommunicationsService Ownership

def isOf (studentId : UUID) (n : Notification) : Bool := decide (n.userId = studentId)

def ownsNotification (s : State) (studentId id : UUID) : Bool :=
  owns Notification.id (isOf studentId) s.notifications id

def without (studentId : UUID) (s : State) : State where
  notifications := others (isOf studentId) s.notifications
  deliveryLogs := othersOf Notification.id (isOf studentId) NotificationDeliveryLog.notificationId
    s.notifications s.deliveryLogs

/-- Ids are unique, and every log belongs to a notification. -/
structure Sound (s : State) : Prop where
  ids : (s.notifications.map Notification.id).Nodup
  logs : ∀ log ∈ s.deliveryLogs, log.notificationId ∈ s.notifications.map Notification.id

/-- **What the handler of an event can do.**  It stops before its first commit, or it
    commits the notification, or the notification and its log. -/
theorem handleDomainEvent_cases (s : State) (env : Env) (event : DomainEvent) :
    (handleDomainEvent s env event).1 = s ∨
    ∃ note t, noteOf event = .ok (some note) ∧ insertNotification s env note = .ok t ∧
      ((handleDomainEvent s env event).1 = t ∨
        insertDeliveryLog t env env.notificationId = .ok (handleDomainEvent s env event).1) := by
  unfold handleDomainEvent
  split
  · exact Or.inl rfl
  · exact Or.inl rfl
  rename_i note hnote
  split
  · exact Or.inl rfl
  rename_i t hins
  refine Or.inr ⟨note, t, hnote, hins, ?_⟩
  split
  · exact Or.inl rfl
  rename_i stored hstored
  have hid : stored.id = env.notificationId := (mem_of_refresh hstored).2
  split
  · exact Or.inl rfl
  · rename_i hlog
    exact Or.inr (hid ▸ hlog)

theorem insertNotification_row {s t : State} {env : Env} {note : Note}
    (h : insertNotification s env note = .ok t) :
    ∃ row : Notification, row.id = env.notificationId ∧ row.userId = note.userId ∧
      row.id ∉ s.notifications.map Notification.id ∧
      t = { s with notifications := s.notifications ++ [row] } := by
  unfold insertNotification at h
  split at h
  · split at h
    · cases h
    split at h
    · rename_i hins
      obtain ⟨hfresh, rfl⟩ := Table.insertRow_eq_some.mp hins
      cases h
      exact ⟨_, rfl, rfl, Table.not_mem_of_fresh hfresh, rfl⟩
    · cases h
  · cases h

theorem sound_handle {s : State} (h : Sound s) (env : Env) (event : DomainEvent) :
    Sound (handleDomainEvent s env event).1 := by
  rcases handleDomainEvent_cases s env event with hsame | ⟨note, t, -, hins, hrest⟩
  · rw [hsame]
    exact h
  obtain ⟨row, hid, -, hfresh, rfl⟩ := insertNotification_row hins
  have ht : Sound { s with notifications := s.notifications ++ [row] } := by
    constructor
    · rw [List.map_append]
      exact h.ids.append (List.nodup_singleton _) (List.disjoint_singleton.mpr hfresh)
    · intro log hlog
      rw [List.map_append]
      exact List.mem_append_left _ (h.logs log hlog)
  rcases hrest with heq | hlog
  · rw [heq]
    exact ht
  · rw [insertDeliveryLog_ok hlog]
    refine ⟨ht.ids, Table.refers_append ht.logs (List.Subset.refl _) ?_⟩
    simp [hid]

theorem sound_markRead {s : State} (h : Sound s) (env : Env) (notificationId userId : UUID) :
    Sound (markRead s env notificationId userId).1 := by
  obtain ⟨hids, hlogs⟩ := map_markRead (g := Notification.id) (fun _ _ => rfl) s env notificationId
    userId
  constructor
  · rw [hids]
    exact h.ids
  · rw [hids, hlogs]
    exact h.logs

section Student

variable {b : UUID} {s : State}

/-! ## Commits -/

theorem without_notification {row : Notification} (hother : isOf b row = false) :
    without b { s with notifications := s.notifications ++ [row] } =
      { without b s with notifications := (without b s).notifications ++ [row] } := by
  have hlogs : othersOf Notification.id (isOf b) NotificationDeliveryLog.notificationId
      (s.notifications ++ [row]) s.deliveryLogs = (without b s).deliveryLogs :=
    othersOf_congr fun log _ => owns_append_other hother log.notificationId
  simp only [without, others_append_other hother, hlogs]

theorem insertNotification_own (h : Sound s) {t : State} {env : Env} {note : Note}
    (hown : note.userId = b) (hins : insertNotification s env note = .ok t) :
    without b t = without b s ∧ ownsNotification t b env.notificationId = true := by
  obtain ⟨row, hid, huser, hfresh, rfl⟩ := insertNotification_row hins
  have hown' : isOf b row = true := decide_eq_true (huser.trans hown)
  have hlogs : othersOf Notification.id (isOf b) NotificationDeliveryLog.notificationId
      (s.notifications ++ [row]) s.deliveryLogs = (without b s).deliveryLogs :=
    othersOf_insert h.logs hfresh
  constructor
  · simp only [without, others_append_own hown', hlogs]
  · simp [ownsNotification, owns, hid, hown']

theorem insertNotification_without {env : Env} {note : Note} (hne : note.userId ≠ b)
    (hfresh : env.notificationId ∉ s.notifications.map Notification.id) :
    insertNotification (without b s) env note =
      (insertNotification s env note).map (without b) := by
  have hfresh' : env.notificationId ∉ (without b s).notifications.map Notification.id :=
    fun hmem => hfresh ((List.filter_sublist.map _).subset hmem)
  rcases hbody : note.body with _ | _ | _ | body | _ | _
  case str =>
    rcases hfails : env.databaseFails with _ | _
    · rw [insertNotification_of_fresh env hbody hfails hfresh,
        insertNotification_of_fresh env hbody hfails hfresh', Except.map,
        without_notification (decide_eq_false hne)]
    · simp [insertNotification, hbody, hfails, Except.map]
  all_goals simp [insertNotification, hbody, Except.map]

theorem insertDeliveryLog_own {t : State} {env : Env} {id : UUID}
    (hown : ownsNotification s b id = true) (hlog : insertDeliveryLog s env id = .ok t) :
    without b t = without b s := by
  let log : NotificationDeliveryLog := ⟨env.deliveryLogId, id, "email", "pending"⟩
  have hlogs : othersOf Notification.id (isOf b) NotificationDeliveryLog.notificationId
      s.notifications (s.deliveryLogs ++ [log]) = (without b s).deliveryLogs :=
    othersOf_append_own hown
  rw [insertDeliveryLog_ok hlog]
  exact congrArg (fun logs => { without b s with deliveryLogs := logs }) hlogs

theorem insertDeliveryLog_without {env : Env} {id : UUID}
    (hother : ownsNotification s b id = false)
    (hfresh : env.deliveryLogId ∉ s.deliveryLogs.map NotificationDeliveryLog.id) :
    insertDeliveryLog (without b s) env id = (insertDeliveryLog s env id).map (without b) := by
  have hfresh' : env.deliveryLogId ∉ (without b s).deliveryLogs.map NotificationDeliveryLog.id :=
    fun hmem => hfresh ((List.filter_sublist.map _).subset hmem)
  let log : NotificationDeliveryLog := ⟨env.deliveryLogId, id, "email", "pending"⟩
  have hlogs : othersOf Notification.id (isOf b) NotificationDeliveryLog.notificationId
      s.notifications (s.deliveryLogs ++ [log]) = (without b s).deliveryLogs ++ [log] :=
    othersOf_append_other hother
  rcases hfails : env.databaseFails with _ | _
  · rw [insertDeliveryLog_of_fresh env id hfails hfresh,
      insertDeliveryLog_of_fresh env id hfails hfresh', Except.map]
    exact congrArg (fun logs => Except.ok { without b s with deliveryLogs := logs }) hlogs.symm
  · simp [insertDeliveryLog, hfails, Except.map]

theorem refresh_without (hids : (s.notifications.map Notification.id).Nodup) (env : Env) {id : UUID}
    (hother : ownsNotification s b id = false) :
    refresh (without b s) env id = refresh s env id := by
  rw [refresh, without, lookup_others hids, refresh]
  rcases hfound : Table.lookup Notification.id id s.notifications with _ | n
  · rfl
  · have hown : ownsNotification s b n.id = isOf b n :=
      owns_of_mem hids (Table.mem_of_lookup hfound)
    rw [Table.key_of_lookup hfound, hother] at hown
    simp [Option.filter, ← hown]

/-! ## Events -/

/-- **An event about the student leaves everybody else's notifications as they are.** -/
theorem handle_own (h : Sound s) (env : Env) {event : DomainEvent}
    (hown : ∀ note, noteOf event = .ok (some note) → note.userId = b) :
    without b (handleDomainEvent s env event).1 = without b s := by
  rcases handleDomainEvent_cases s env event with hsame | ⟨note, t, hnote, hins, hrest⟩
  · rw [hsame]
  obtain ⟨hhidden, howner⟩ := insertNotification_own h (hown note hnote) hins
  rcases hrest with heq | hlog
  · rw [heq, hhidden]
  · rw [insertDeliveryLog_own howner hlog, hhidden]

/-- **Without the student, an event about somebody else does the same.** -/
theorem handle_other (h : Sound s) (env : Env) {event : DomainEvent}
    (hother : ∀ note, noteOf event = .ok (some note) → note.userId ≠ b)
    (hnotification : env.notificationId ∉ s.notifications.map Notification.id)
    (hlog : env.deliveryLogId ∉ s.deliveryLogs.map NotificationDeliveryLog.id) :
    (handleDomainEvent (without b s) env event).1 =
      without b (handleDomainEvent s env event).1 := by
  unfold handleDomainEvent
  rcases hnote : noteOf event with e | _ | note
  · rfl
  · rfl
  have hne := hother note hnote
  simp only [insertNotification_without hne hnotification]
  rcases hins : insertNotification s env note with e | t
  · rfl
  obtain ⟨row, hid, huser, hfresh, rfl⟩ := insertNotification_row hins
  have hrow : isOf b row = false := decide_eq_false (huser ▸ hne)
  have hids : ((s.notifications ++ [row]).map Notification.id).Nodup := by
    rw [List.map_append]
    exact h.ids.append (List.nodup_singleton _) (List.disjoint_singleton.mpr hfresh)
  have hnew : ownsNotification { s with notifications := s.notifications ++ [row] } b
      env.notificationId = false :=
    (owns_append_other hrow _).trans (owns_of_fresh hnotification)
  simp only [Except.map, refresh_without hids env hnew]
  rcases hstored : refresh { s with notifications := s.notifications ++ [row] }
      env env.notificationId with e | stored
  · rfl
  simp only [(mem_of_refresh hstored).2, insertDeliveryLog_without hnew hlog]
  rcases insertDeliveryLog { s with notifications := s.notifications ++ [row] } env
      env.notificationId with e | t <;> rfl

/-! ## `mark_read` -/

theorem othersOf_modify {f : Notification → Notification} (hid : ∀ n, (f n).id = n.id)
    (hown : ∀ n, isOf b (f n) = isOf b n) (id : UUID) :
    othersOf Notification.id (isOf b) NotificationDeliveryLog.notificationId
        (Table.modify Notification.id id f s.notifications) s.deliveryLogs =
      (without b s).deliveryLogs :=
  othersOf_congr fun log _ => owns_modify hid hown log.notificationId

theorem without_modify {f : Notification → Notification} (hid : ∀ n, (f n).id = n.id)
    (hown : ∀ n, isOf b (f n) = isOf b n) (id : UUID) :
    without b { s with notifications := Table.modify Notification.id id f s.notifications } =
      { without b s with
        notifications := Table.modify Notification.id id f (without b s).notifications } := by
  rw [without, others_modify hown, othersOf_modify hid hown]
  rfl

theorem without_modify_own (h : Sound s) {f : Notification → Notification}
    (hid : ∀ n, (f n).id = n.id) (hown : ∀ n, isOf b (f n) = isOf b n) {note : Notification}
    (hnote : note ∈ s.notifications) (howner : isOf b note = true) :
    without b { s with notifications := Table.modify Notification.id note.id f s.notifications } =
      without b s := by
  rw [without, others_modify_own hown h.ids hnote howner, othersOf_modify hid hown]
  rfl

theorem commitRead_without (env : Env) (note : Notification) :
    commitRead (without b s) env note = (commitRead s env note).map (without b) := by
  unfold commitRead
  split
  · rfl
  · rw [Except.map,
      without_modify (f := fun n : Notification => { n with readAt := some env.clock })
        (fun _ => rfl) fun _ => rfl]

theorem commitRead_own (h : Sound s) {t : State} {env : Env} {note : Notification}
    (hnote : note ∈ s.notifications) (howner : isOf b note = true)
    (hcommit : commitRead s env note = .ok t) : without b t = without b s := by
  rw [commitRead_ok hcommit]
  exact without_modify_own h (f := fun n : Notification => { n with readAt := some env.clock })
    (fun _ => rfl) (fun _ => rfl) hnote howner

theorem markRead_own (h : Sound s) (env : Env) (notificationId : UUID) :
    without b (markRead s env notificationId b).1 = without b s := by
  unfold markRead
  split
  · rfl
  rename_i note hfound
  split
  · rfl
  rename_i hcommit
  have hnote := List.find?_some hfound
  simp only [Bool.and_eq_true, decide_eq_true_eq] at hnote
  exact commitRead_own h (List.mem_of_find?_eq_some hfound) (decide_eq_true hnote.2) hcommit

/-- The user has nothing left to read. -/
theorem markRead_absent (env : Env) (notificationId : UUID) :
    (markRead (without b s) env notificationId b).1 = without b s := by
  have hfind : findOwn (without b s) notificationId b = none := by
    rw [findOwn, List.find?_eq_none]
    intro n hn hown
    simp only [Bool.and_eq_true, decide_eq_true_eq] at hown
    have hother := (List.mem_filter.mp hn).2
    simp [isOf, hown.2] at hother
  rw [markRead, hfind]

theorem markRead_other (env : Env) (notificationId : UUID) {userId : UUID} (hne : userId ≠ b) :
    (markRead (without b s) env notificationId userId).1 =
      without b (markRead s env notificationId userId).1 := by
  have hfind : findOwn (without b s) notificationId userId = findOwn s notificationId userId := by
    rw [findOwn, without, others, List.find?_filter, findOwn]
    congr 1
    funext n
    by_cases hn : n.userId = userId
    · simp [isOf, hn, hne]
    · simp [hn]
  rw [markRead, hfind, markRead]
  rcases findOwn s notificationId userId with _ | note
  · rfl
  simp only [commitRead_without]
  rcases commitRead s env note with e | t <;> rfl

theorem markRead_without (h : Sound s) (env : Env) (notificationId userId : UUID) :
    (markRead (without b s) env notificationId userId).1 =
      without b (markRead s env notificationId userId).1 := by
  by_cases hid : userId = b
  · rw [hid, markRead_absent, markRead_own h]
  · exact markRead_other env notificationId hid

end Student

end CampusHire.NotificationErasure
