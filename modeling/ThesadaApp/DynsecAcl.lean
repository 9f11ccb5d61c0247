import ThesadaApp.Basic
import ThesadaApp.TopicFilter

/-!
The access rights a paired device gets on the broker.
-/

namespace ThesadaApp

open TopicFilter

/-- The ACL types the device roles use. -/
inductive ACLType where
  | publishClientSend
  | publishClientReceive
  | subscribePattern
  deriving DecidableEq, Repr

structure DynsecACL where
  aclType : ACLType
  topic : String
  allow : Bool
  deriving DecidableEq, Repr

def dynsecDeviceRoleName (tenant deviceID : String) : String := "device-" ++ tenant ++ "-" ++ deviceID

/-- The tree of the discovery topics, shared by all devices. -/
def discoveryTree : String := "homeassistant/#"

/-- The per-device ACL set. -/
def dynsecDeviceACLs (root tenantID topicPrefix : String) (broadRead : Bool) : List DynsecACL :=
  let root := if root = "" then "thesada" else root
  let ownTopic := topicPrefix ++ "/#"
  let subTopic := if broadRead then root ++ "/#" else root ++ "/" ++ tenantID ++ "/#"
  [⟨.publishClientSend, ownTopic, true⟩,
    ⟨.publishClientSend, discoveryTree, true⟩,
    ⟨.subscribePattern, discoveryTree, true⟩,
    ⟨.publishClientReceive, discoveryTree, true⟩,
    ⟨.subscribePattern, subTopic, true⟩,
    ⟨.publishClientReceive, subTopic, true⟩,
    ⟨.subscribePattern, ownTopic, true⟩,
    ⟨.publishClientReceive, ownTopic, true⟩]

/-- An ACL lets a client publish on a topic. -/
def DynsecACL.publishes (a : DynsecACL) (topic : String) : Bool :=
  a.aclType = .publishClientSend && a.allow && matchesTopic a.topic topic

/-- What is not allowed is denied. -/
def mayPublish (acls : List DynsecACL) (topic : String) : Bool := acls.any fun a => a.publishes topic

/-- A device publishes in its own tree and in the discovery tree, whatever it may read. -/
theorem mayPublish_dynsecDeviceACLs (root tenantID topicPrefix topic : String) (broadRead : Bool) :
    mayPublish (dynsecDeviceACLs root tenantID topicPrefix broadRead) topic =
      (matchesTopic (topicPrefix ++ "/#") topic || matchesTopic discoveryTree topic) := by
  simp [mayPublish, dynsecDeviceACLs, DynsecACL.publishes]

end ThesadaApp
