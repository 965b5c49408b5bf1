import MeshsatHub.Tenancy.Isolation
import MeshsatHub.Egress.Sealed
import MeshsatHub.Directory.Following
import MeshsatHub.Startup.HubKeys
import MeshsatHub.Access.SupportGrants
import MeshsatHub.Outbound.Webhook
import MeshsatHub.Warnings.Isolation
import MeshsatHub.Session.SingleUse
import MeshsatHub.Protocol.Fec
import MeshsatHub.Provisioning.Claims
import MeshsatHub.Offboarding.GracePeriod
import MeshsatHub.Audit.Appends
import MeshsatHub.Escalation.Exclusive
import MeshsatHub.Sos.Terminal
import MeshsatHub.Takhosted.Emergencies
import MeshsatHub.Rnsnode.Closed
import MeshsatHub.Inbound.Kept
import MeshsatHub.Oob.Counters
import MeshsatHub.Federation.FanOut
import MeshsatHub.Rns.PartSizes
import MeshsatHub.Rns.Delivery
import MeshsatHub.Rns.Leaves
import MeshsatHub.Rnswire.Packets
import MeshsatHub.Inbound.Separation
import MeshsatHub.Inbound.Fragments
import MeshsatHub.Topics.Subscriptions
import MeshsatHub.Hubmsg.MidIndex
import MeshsatHub.Hubmsg.Republication
import MeshsatHub.Hubmsg.Evidence
import MeshsatHub.Stripe.Subscriptions
import MeshsatHub.Lxmf.HashAgreement
import MeshsatHub.Lxmfhub.Deliveries
import MeshsatHub.Lxmfhub.Held
import MeshsatHub.Rnswire.Reader
import MeshsatHub.Oob.Assembly
import MeshsatHub.Oob.Windows
import MeshsatHub.Billing.PlanChanges
import MeshsatHub.Billing.Refunded
import MeshsatHub.Ratelimit.Budget
import MeshsatHub.Deadman.CheckIns
import MeshsatHub.Cmdjobs.Begin
import MeshsatHub.Geo.Simplify
import MeshsatHub.Rns.Requests
import MeshsatHub.Satchat.Messages
import MeshsatHub.Tenancy.Cached
import MeshsatHub.Takchat.Sends
