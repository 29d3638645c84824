import ContainerNet.ContainerId
import ContainerNet.Link.Shaped
import ContainerNet.NetworkConfig
import ContainerNet.Plugin.Attachment
import ContainerNet.Route.Enforcement

/-!
# Configurators

A configurator brings the network of one container into the state that a configuration asks for.
It remembers whether the container is attached, and the default route that the namespace had before
a policy took it away. A call that fails leaves what it has done, and a later call goes on from
there.

Only one network is managed, so at most one link is attached. What belongs to the link is remembered
with it: what the plugins were given, which detaching needs, and the routes that were captured when
it came up, from which every policy is derived. The uplink is remembered beyond that. There is no
way back from a step, so each of them leaves a configurator whether or not it fails.
-/

namespace ContainerNet

/-- The network that the sidecar manages. -/
structure DataNetwork where
  name : String := "default"
  /-- The name of the interface in each container. -/
  interface : String := "eth1"
  /-- Where addresses are taken from when none is asked for. -/
  pool : Subnet := .ofOctets 16 0 0 0 16
deriving DecidableEq, Repr, Inhabited

/-- An attached network. -/
structure ActiveLink where
  link : ShapedLink
  /-- The first address of the interface when it came up. -/
  ipv4 : Option Subnet
  runtime : Plugin.Runtime
  /-- What the plugins were given. -/
  list : Plugin.ConfigList
  /-- The routes that were there when the interface came up. -/
  external : ExternalRoutes

/-- Something worth knowing that does not make a call fail. -/
inductive ConfigureWarning
  /-- The interface did not come up with exactly one IPv4 address. -/
  | addressCount (link : String) (found : Nat)
deriving DecidableEq, Repr

def ConfigureWarning.text : ConfigureWarning → String
  | .addressCount link found =>
    "found " ++ Text.natText found ++ " v4 addresses on " ++ link ++ ", expected 1"

/-- The management of one container's network. -/
structure Configurator where
  container : ContainerId
  /-- The path of the container's namespace. -/
  netns : String
  network : DataNetwork := {}
  plugin : Plugin.Settings := {}
  retry : RetryPolicy := {}
  /-- The attached network. -/
  active : Option ActiveLink := none
  /-- The default route that the namespace had when the first interface came up. -/
  uplink : Option Route := none
  warnings : List ConfigureWarning := []
  closed : Bool := false

namespace Configurator

/-- An action of a configurator, with the configurator that it leaves. -/
abbrev Step := Configurator → Action (Outcome Unit × Configurator)

/-- One step, and then another if the first does not fail. -/
def Step.andThen (p q : Step) : Step := fun c ↦
  (p c).bind fun
    | (.error e, c) => .done (.error e, c)
    | (.ok (), c) => q c

variable (c : Configurator)

/-- Whether the network is attached. -/
def isOnline : Bool := c.active.isSome

/-- The names of the attached networks. -/
def listActive : List String := if c.isOnline then [c.network.name] else []

/-- Whether a configuration can be acted on at all. -/
def check (config : NetworkConfig) : Outcome Unit :=
  if config.network ≠ c.network.name then
    .error (.unsupportedNetwork config.network c.network.name)
  else if config.ipv6.isSome then .error (.notSupported "ipv6")
  else if c.closed then .error .closed
  else config.validate

/-- Detaches the container if it is attached. If that fails it counts as attached. -/
def detach : Step := fun c ↦
  match c.active with
  | none => .done (.ok (), c)
  | some link =>
    (link.list.detach link.runtime).bind fun
      | .error e => .done (.error e, c)
      | .ok () => .done (.ok (), { c with active := none })

/-- Whether the container is attached with another address than the one asked for. -/
def hasOtherAddress (wanted : Option Subnet) : Bool :=
  match c.active, wanted with
  | some link, some wanted => link.ipv4.map (·.address) != some wanted.address
  | _, _ => false

/-- Detaches the container if it is attached with another address than the one asked for. -/
def detachOther (wanted : Option Subnet) : Step := fun c ↦
  if c.hasOtherAddress wanted then detach c else .done (.ok (), c)

/-- How an address is to be allocated. -/
def allocation (wanted : Option Subnet) : Plugin.Allocation :=
  match wanted with
  | some address => .fixed address
  | none => .pool c.network.pool

/-- What the plugins run for. -/
def runtime : Plugin.Runtime where
  containerId := c.container.text
  netns := c.netns
  interface := c.network.interface

/-- Takes note of a number of addresses other than one. -/
def noteAddresses (link : Link) (found : List Subnet) (c : Configurator) : Action Configurator :=
  if found.length = 1 then .done c
  else
    let w : ConfigureWarning := .addressCount link.name found.length
    .ask (.log (Log.warn "Unexpected address count" [("warning", w.text)])) fun _ ↦
    .done { c with warnings := c.warnings ++ [w] }

/-- The container is attached now, with these routes around it. -/
def bringOnline (link : ShapedLink) (addresses : List Subnet) (list : Plugin.ConfigList)
    (captured : ExternalRoutes) (c : Configurator) : Configurator :=
  let external := captured.orUplink c.uplink
  { c with
    active := some ⟨link, addresses.head?, c.runtime, list, external⟩
    uplink := c.uplink.or external.uplink }

/-- Looks at the interface that the plugins have made. -/
def inspect (list : Plugin.ConfigList) : Step := fun c ↦
  (ShapedLink.resolve c.network.interface).bind fun
    | .error e => .done (.error e, c)
    | .ok link => link.addresses4.bind fun
      | .error e => .done (.error e, c)
      | .ok addresses => (noteAddresses link.link addresses c).bind fun c ↦
        (ExternalRoutes.snapshot link.link.index).bind fun
          | .error e => .done (.error e, c)
          | .ok captured => .done (.ok (), c.bringOnline link addresses list captured)

/-- Attaches the container unless it is attached. -/
def attach (wanted : Option Subnet) : Step := fun c ↦
  if c.isOnline then .done (.ok (), c)
  else
    let list := Plugin.ConfigList.build (c.allocation wanted) c.plugin
    (list.attach c.runtime c.retry).bind fun
      | .error e => .done (.error e, c)
      | .ok _ => inspect list c

/-- Replaces the link of the attached network. -/
def setLink (c : Configurator) (active : ActiveLink) (link : ShapedLink) : Configurator :=
  { c with active := some { active with link } }

/-- Sets something on the link of the attached network, if there is one. -/
def onLink (set : ShapedLink → Action (Outcome Unit × ShapedLink)) : Step := fun c ↦
  match c.active with
  | none => .done (.ok (), c)
  | some active =>
    (set active.link).bind fun (outcome, link) ↦ .done (outcome, c.setLink active link)

/-- Puts the shape of a configuration into force. -/
def applyShape (config : NetworkConfig) : Step := onLink (·.setShape config.shape)

/-- Puts the rules of a configuration into force. -/
def applyRules (config : NetworkConfig) : Step := onLink (·.setRules config.rules)

/-- Enforces the policy of a configuration. -/
def applyPolicy (config : NetworkConfig) : Step := fun c ↦
  match c.active with
  | none => .done (.ok (), c)
  | some active => (active.external.enforce config.policy).bind fun outcome ↦ .done (outcome, c)

/-- Brings an enabled network into the state that is asked for. -/
def converge (config : NetworkConfig) : Step :=
  (detachOther config.ipv4).andThen <| (attach config.ipv4).andThen <|
    (applyShape config).andThen <| (applyRules config).andThen (applyPolicy config)

/-- Brings the network into the state that is asked for. -/
def configure (config : NetworkConfig) : Step := fun c ↦
  match c.check config with
  | .error e => .done (.error e, c)
  | .ok () => if config.enable then converge config c else detach c

/-- Gives the handle on the kernel back. What is attached stays so. -/
def close (c : Configurator) : Action Configurator :=
  if c.closed then .done c
  else .ask .closeKernel fun _ ↦ .done { c with closed := true }

/-- The warnings so far, and the configurator without them. -/
def takeWarnings : List ConfigureWarning × Configurator := (c.warnings, { c with warnings := [] })

end Configurator

end ContainerNet
